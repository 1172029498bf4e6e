/-
  PrintLatch.Config

  `AppConfig` (`src/config.rs`): the data directory and the port of an agent.
-/

namespace PrintLatch

/-- `AppConfig`. -/
structure AppConfig where
  dataDir : String
  port : Nat
  deriving DecidableEq, Repr

/-- `DEFAULT_PORT`. -/
def defaultPort : UInt16 := 32191

/-- `AppConfig::resolve`; `defaultDataDir` is what `default_data_dir` makes of the
    environment. -/
def AppConfig.resolve (defaultDataDir : Except String String) (dataDir : Option String)
    (port : Option UInt16) : Except String AppConfig :=
  match dataDir.elim defaultDataDir .ok with
  | .error message => .error message
  | .ok dataDir =>
      let port := port.getD defaultPort
      if port = 0 then
        .error "port 0 is not supported because SDK clients need a stable loopback address"
      else .ok ⟨dataDir, port.toNat⟩

/-- `Path::join` with a relative component: a separator goes between, unless the
    base is empty or ends in one. -/
def joinPath (base leaf : String) : String :=
  match base.toList.getLast? with
  | none => leaf
  | some c => if c = '\\' ∨ c = '/' then base ++ leaf else base ++ "\\" ++ leaf

theorem joinPath_inj {base a b : String} : joinPath base a = joinPath base b ↔ a = b := by
  unfold joinPath
  split
  · rfl
  · split <;> simp

/-- `AppConfig::jobs_dir`. -/
def AppConfig.jobsDir (config : AppConfig) : String := joinPath config.dataDir "jobs"

/-- `AppConfig::captures_dir`. -/
def AppConfig.capturesDir (config : AppConfig) : String := joinPath config.dataDir "captures"

/-- An agent's configuration. -/
def exampleConfig : AppConfig := ⟨"C:\\PrintLatch", 17890⟩

end PrintLatch

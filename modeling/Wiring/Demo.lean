import Wiring.Session.Command
import Wiring.Release

namespace Wiring.Demo

/-! The demonstration run of the command line: a context with one configuration class that
imports a support configuration and declares a clock and a greeting built from the clock. The
run prints the liveness answer, the version, every definition after the refresh, and the
greeting. A first argument names a log directory; one that cannot be used disables logging
with a message and the run goes on. -/

def supportPlan : ClassPlan :=
  { key := "demo.support.SupportConfig", name := "demo.support.SupportConfig"
    configuration := true, constructor := some (.value "()") }

def appPlan : ClassPlan :=
  { key := "demo.AppConfig", name := "demo.AppConfig", configuration := true
    imports := ["demo.support.SupportConfig"], constructor := some (.value "()")
    methods :=
      [ { name := "clock", returns := some "demo.Clock"
          body := some { returns := .value "1700000000" } },
        { name := "greeting", returns := some "demo.Greeting"
          body := some { steps := [.call "clock"], returns := .value "hello at $0" } } ] }

/-- What a run prints and answers. -/
structure Run where
  code : Nat
  stdout : String
  stderr : String
  logger : Option Log.Logger

def bootstrap : Except BootError (List String × String) := do
  let s ← match Session.setup [.ofPlan supportPlan, .ofPlan appPlan] []
      [.context (.ok {}) [supportPlan.key] (.ok none) (.ok none) none] with
    | .ok s => pure s
    | .error _ => throw (.processor "demo" "setup failed")
  let step (s : Session) (c : Command) : Except BootError (Outcome × Session) :=
    match s.exec 0 c with
    | (.ok o, s) => .ok (o, s)
    | (.error (.boot e), _) => .error e
    | (.error (.misuse m), _) => .error (.processor "demo" m)
  let (_, s) ← step s (.registerClass "appConfig" appPlan.key)
  let (_, s) ← step s .refresh
  let names := ((s.slots[0]?).map (·.box.names)).getD []
  let (greeting, _) ← step s (.component "greeting" .component)
  match greeting with
  | .instance i => return (names, i.describe)
  | _ => return (names, "")

def run (logDir : Option Log.Directory) (create : Log.Creation) : Run :=
  let (logger, stderr) := match logDir with
    | none => (none, "")
    | some dir =>
      match Log.start none create Log.defaultLevel dir with
      | .ok l => (some l, "")
      | .error e => (none, "logging disabled: " ++ e.message ++ "\n")
  let header := "bootwire_core ping=" ++ ping ++ "\nbootwire_core version=" ++ version ++ "\n"
  match bootstrap with
  | .ok (names, greeting) =>
    let body := String.join (names.map fun n => "definition " ++ n ++ "\n")
    { code := 0, stdout := header ++ body ++ "greeting=" ++ greeting ++ "\n", stderr := stderr
      logger := logger }
  | .error e =>
    { code := 1, stdout := header, stderr := stderr ++ "bootstrap failed: " ++ e.message ++ "\n"
      logger := logger }

end Wiring.Demo

import Netsieve.Scenario.Callbacks

/-!
# `Netsieve.Scenario.Session`: running a scenario

A session starts with one engine, named `main`, and performs its acts one after
the other. What is told about an act is its answer or the panic it ended with, the
callbacks that ran, and the events, if the session is traced. A panic ends its act
and nothing else: what happened before it stays, and the session goes on.
-/

set_option autoImplicit false

namespace Netsieve.Scenario

/-- A scenario and the circumstances of its run. -/
structure Session where
  /-- Whether time can pass. -/
  runtime : Bool
  /-- Whether events are told. -/
  traced : Bool
  acts : List Act

/-- What is told about an act. -/
structure Report where
  result : Except Panic Answer
  /-- The callbacks that ran. -/
  log : List LogEntry
  /-- The events, if they are told. -/
  events : List Event

namespace Act

/-- Carries out an act. -/
def perform (cb : Callbacks script) : Act → Program Answer
  | .step s => s.perform cb
  | .advance ms => do
    Netsieve.advance cb ms
    pure (.clock (← get).clock)
  | .receive inbox ms =>
    withInbox inbox fun inbox => do
      let held : World script → Bool := fun w => w.memory.networks.any (· = inbox.network)
      let reception ← Netsieve.receive cb held inbox.network inbox.id ms
      pure (.reception reception (← get).clock)

end Act

namespace Session

/-- The world a session starts with. -/
def start (s : Session) : World script where
  engines := Table.push {} default
  hasRuntime := s.runtime
  memory := { engines := Names.insert {} "main" ⟨0⟩ }

/-- Forgets what was told about earlier acts. -/
def fresh (w : World script) : World script :=
  { w with events := #[], memory := { w.memory with log := #[] } }

/-- Carries out one act, and tells about it. -/
def perform (s : Session) (w : World script) (act : Act) : Report × World script :=
  let report (result : Except Panic Answer) (w : World script) : Report :=
    { result
      log := w.memory.log.toList
      events := if s.traced then w.events.toList else [] }
  match act.perform (callbacks maxDepth) (fresh w) with
  | .ok answer w => (report (.ok answer) w, w)
  | .error p w => (report (.error p) w, w)

/-- Carries out acts in order, and tells about each. -/
def performAll (s : Session) : World script → List Act → List Report
  | _, [] => []
  | w, act :: acts =>
    let (report, w) := s.perform w act
    report :: performAll s w acts

/-- Runs a session. -/
def run (s : Session) : List Report :=
  s.performAll s.start s.acts

end Session

end Netsieve.Scenario

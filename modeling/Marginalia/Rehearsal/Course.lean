import Marginalia.Rehearsal.Basic

/-!
# The course of the program in a rehearsal

The program starts its session and sleeps again and again. Each sleep is a scene; when no scenes are
left, a signal wakes it for good.
-/

namespace Marginalia.Rehearsal

/-- How the program has ended, and what was seen. -/
structure Course where
  /-- The code that it exited with; none when it has done its work. -/
  exit : Option Nat
  seen : List Sight

/-- What the program has shown, at a time that is not known. -/
def Course.output (c : Course) (setup : Log.Setup) : String :=
  String.join (c.seen.map fun
    | .part n => Program.shown setup none n
    | _ => "")

/-- Takes note of some entries of the log. -/
def logAll (r : Rehearsal) (entries : List Log.Entry) : Rehearsal :=
  entries.foldl (fun r e => r.see (.log e)) r

/-- The program sleeps once while some acts take place. -/
def sleep (steps : Nat) (acts : List Act) (r : Rehearsal) : Rehearsal × Program.Next :=
  let r := play steps (enter acts { r with seen := r.seen ++ [.asleep] })
  let (entries, next) := Program.slept r.interrupted r.stopping
  (r.logAll entries, next)

/-- The program sleeps until it is asked to stop. -/
def sleepOn (steps : Nat) : List (List Act) → Rehearsal → Rehearsal
  | [], r => (sleep steps [.signal 15] r).1
  | acts :: later, r =>
    match sleep steps acts r with
    | (r, .sleep) => sleepOn steps later r
    | (r, _) => r

/-- The course of the program, each part of it in at most so many steps. -/
def course (steps : Nat) (p : Program) (sleeps : List (List Act)) (r : Rehearsal) : Course :=
  let prepared := { r with seen := r.seen ++ Program.signals.map Sight.prepared }
  let (opening, _) := p.begin
  let r := play steps (enter [.start (some p.path) none] (prepared.logAll opening))
  let (entries, next) := p.started r.failure r.stopping
  let r := r.logAll entries
  match next with
  | .exit code => ⟨some code, r.seen⟩
  | _ =>
    let r := if next = .sleep then sleepOn steps sleeps r else r
    let r := play steps (enter [.shutdown] r)
    ⟨none, (r.logAll p.ended.1).seen⟩

end Marginalia.Rehearsal

import Marginalia.Proofs.Assembly.Runs

/-!
# The messages of a session

What a session delivers, in any run: one message for each change that is accepted and whose file
holds a trigger, and nothing else.  A message is about the blocks that were read since the session
was last started, and tells their paths from the directory of that start.

The run is followed by `stand_after`.  `answersTo_of_plays` is the result: the messages are the
letters of the history (`letters`), files are read as `Heeds` says, the directory is that of the
latest start, and whatever a letter quotes was read since (`ReadSince`).
-/

namespace Marginalia.Assembly

open Watcher (Deed contentInForce? pendingOf)

variable {a : Assembly} {s : Session} {h : History} {path content : String}

/-- The content of the file was brought since the session was last started or shut down. -/
def ReadSince (a : Assembly) (h : History) (path content : String) : Prop :=
  ∃ later earlier newer, h = later ++ .answer (.text content) :: earlier ∧
    a.reading? earlier = some path ∧ a.calls h = newer ++ a.calls earlier ∧
      ∀ c ∈ newer, c.turnsOver = false

/-- What was brought before is as old as it was, unless the session is called in between. -/
lemma ReadSince.cons {i : Input} (hread : a.ReadSince h path content)
    (hcalled : ∀ c, (a.after h).called? i = some c → c.turnsOver = false) :
    a.ReadSince (i :: h) path content := by
  obtain ⟨later, earlier, newer, hh, hreading, hcalls, hnewer⟩ := hread
  refine ⟨i :: later, earlier, ((a.after h).called? i).toList ++ newer, by rw [hh]; rfl, hreading,
    by rw [calls, hcalls, List.append_assoc], fun c hc => ?_⟩
  rcases List.mem_append.1 hc with hc | hc
  · exact hcalled c (by simpa using hc)
  · exact hnewer c hc

/-- A session that has a directory was started. -/
lemma exists_start (hdirectory : (a.view s h).directory.isSome) :
    ∃ cwd, (a.calls h).find? Session.Input.turnsOver = some (.start cwd) ∧
      (a.view s h).directory = some (s.startDirectory cwd) := by
  have hof : (a.view s h).directory = s.directoryOf (a.calls h) := rfl
  rw [hof, Session.directoryOf] at hdirectory
  split at hdirectory
  · rename_i cwd hfind
    exact ⟨cwd, hfind, by rw [hof, Session.directoryOf, hfind]⟩
  · cases hdirectory

/-- The file that changed is read, and the host answers the first question that comes of it. -/
def readOut (content : String) : History :=
  List.replicate 4 .proceed ++ [.answer .returned, .proceed, .proceed, .answer (.text content),
    .proceed]

/-- A comment waits in one directory, and a trigger comes after a restart in another. -/
def moved : History :=
  readOut "# do AI!" ++ changed 1 "/w/app/a.py" ++ started (some "app") ++ readOut "# note AI" ++
    changed 0 "/w/b.py" ++ started (some "/w")

end Marginalia.Assembly

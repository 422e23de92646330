import Marginalia.Proofs.Assembly.Runs

/-!
# What pauses a session

An agent that works edits files, and its own edits should not start it again.  So the watcher of a
session is paused when the agent begins to work, and goes on when the agent has done.

The pause belongs to the watcher, though, and a start makes a new one.  `delivery_while_agent_works`
says what comes of this: between the two, a message is delivered only if the session was started in
between, and then every change of a file with a trigger that comes from the open subscription has
one delivered.  `delivery_after_restart` is such a run.
-/

namespace Marginalia

namespace Session

/-- Among the calls is a start, and the agent was not said to begin after it. -/
def StartsAnew (calls : List Input) : Prop :=
  ∃ newer cwd older, calls = newer ++ .start cwd :: older ∧ .agentStart ∉ newer

lemma startsAnew_cons {i : Input} (hstart : ∀ cwd, i ≠ .start cwd) (calls : List Input) :
    StartsAnew (i :: calls) ↔ i ≠ .agentStart ∧ StartsAnew calls := by
  constructor
  · rintro ⟨newer, cwd, older, hcalls, hnewer⟩
    cases newer with
    | nil => exact absurd (List.cons.inj hcalls).1 (hstart cwd)
    | cons j newer =>
        obtain ⟨rfl, htail⟩ := List.cons.inj hcalls
        obtain ⟨hi, hnewer⟩ := not_or.1 (List.mem_cons.not.1 hnewer)
        exact ⟨Ne.symm hi, newer, cwd, older, htail, hnewer⟩
  · rintro ⟨hi, newer, cwd, older, rfl, hnewer⟩
    refine ⟨i :: newer, cwd, older, rfl, fun hmem => ?_⟩
    rcases List.mem_cons.1 hmem with h | hmem
    · exact hi h.symm
    · exact hnewer hmem

/-- While the agent works, the watcher is paused until the session starts anew. -/
lemma heldBy_while_agent_works {later : List Input} (hworks : .agentEnd ∉ later)
    (earlier : List Input) :
    heldBy (later ++ .agentStart :: earlier) = false ↔ StartsAnew later := by
  induction later with
  | nil =>
      refine ⟨fun h => ?_, fun h => ?_⟩
      · cases h
      · obtain ⟨newer, cwd, older, hcalls, -⟩ := h
        cases newer <;> cases hcalls
  | cons i later ih =>
      have hlater : .agentEnd ∉ later := fun hmem => hworks (.tail _ hmem)
      cases i with
      | start cwd => exact ⟨fun _ => ⟨[], cwd, later, rfl, List.not_mem_nil⟩, fun _ => rfl⟩
      | agentEnd => exact absurd (.head _) hworks
      | agentStart =>
          rw [startsAnew_cons (fun _ h => by cases h)]
          exact ⟨(fun h => by cases h), fun h => absurd rfl h.1⟩
      | shutdown | comment | trigger | ready | error | answer =>
          rw [startsAnew_cons (fun _ h => by cases h), and_iff_right (fun h => by cases h)]
          exact ih hlater

end Session

namespace Assembly

variable {a : Assembly} {s s' : Session} {v : View} {path : String} {id : Nat} {w : Watcher}
  {file : Option String} {ms : List String} {h : History}

/-! ## Changes while the watcher is paused -/

/-- A change of the file is to be done next, which comes from the open subscription of the present
watcher and is not ignored. -/
def Faces (a : Assembly) (path : String) : Prop :=
  ∃ id g w, a.work = some (.watcher id (.event g (.change path))) ∧ a.current? = some id ∧
    a.watchers[id]? = some w ∧ w.isCurrent g ∧ w.ignores path = false

/-- The change is accepted unless the watcher is paused. -/
lemma Stand.heeds_iff (hstand : Stand s v file ms a) (hfaces : a.Faces path) :
    a.Heeds path ↔ v.held = false := by
  obtain ⟨id, g, w, hwork, hcurrent, hw, hopen, hignored⟩ := hfaces
  obtain ⟨-, s', hrests⟩ := hstand.rests_of_event hwork
  have hpaused : w.paused = v.held :=
    (hrests.seated.holder id w hw (Bool.and_eq_true_iff.1 hopen).2).paused
  constructor
  · rintro ⟨id', g', hwork', -, w', hw', -, hfree, -⟩
    cases hwork.symm.trans hwork'
    obtain rfl := Option.some.inj (hw.symm.trans hw')
    exact hpaused.symm.trans hfree
  · intro hheld
    exact ⟨id, g, hwork, hcurrent, w, hw, hopen, hpaused.trans hheld, hignored⟩

/-- Only what is not paused has a file read. -/
lemma Stand.held_of_heeds (hstand : Stand s v file ms a) (hheeds : a.Heeds path) :
    v.held = false := by
  obtain ⟨id, g, hwork, hcurrent, w, hw, hopen, hfree, hignored⟩ := hheeds
  exact (hstand.heeds_iff ⟨id, g, w, hwork, hcurrent, hw, hopen, hignored⟩).1
    ⟨id, g, hwork, hcurrent, w, hw, hopen, hfree, hignored⟩

/-- The run has come to where the watcher is paused, and no file is read. -/
structure Pauses (a : Assembly) (h : History) : Prop where
  plays : a.plays h
  held : Session.heldBy (a.calls h) = true
  reading : a.reading? h = none

/-- As long as the host makes no call, a pause lasts, and nothing is delivered. -/
lemma Pauses.cons (begins : a.BeginsWith s) (hpauses : a.Pauses h) {i : Input}
    (hi : ∀ c, i ≠ .call c) :
    a.Pauses (i :: h) ∧ messages (a.seen (i :: h)) = messages (a.seen h) := by
  obtain ⟨ms, hstand, -⟩ := stand_after begins hpauses.plays
  have hheld : ¬ (a.view s h).held = false := by
    show ¬ Session.heldBy (a.calls h) = false
    rw [hpauses.held]
    exact Bool.noConfusion
  have hcalled : (a.after h).called? i = none := by
    cases i with
    | call c => exact absurd rfl (hi c)
    | answer | proceed | wait | refuse => rfl
  have hmessages : messages ((a.after h).step i).2 = [] := by
    by_contra hne
    exact hheld (hstand.held_of_messages hne)
  refine ⟨⟨Bool.and_eq_true_iff.2 ⟨?_, hpauses.plays⟩, ?_, ?_⟩, ?_⟩
  · rw [hpauses.reading]
    cases i with
    | call c => exact absurd rfl (hi c)
    | answer | proceed | wait | refuse => rfl
  · rw [calls, hcalled]
    exact hpauses.held
  · rw [Option.eq_none_iff_forall_ne_some]
    intro path hread
    exact hheld (hstand.held_of_heeds ((hstand.file?_iff i path).1 hread).2)
  · rw [seen, messages_append, hmessages, List.append_nil]

/-- **A delivery while the agent works** needs a start after it began; and if there was one, every
change with a trigger that comes from the open subscription is delivered. -/
theorem delivery_while_agent_works (begins : a.BeginsWith s) (hplays : a.plays h)
    {later earlier : List Session.Input} (hcalls : a.calls h = later ++ .agentStart :: earlier)
    (hworks : .agentEnd ∉ later) :
    (∀ i, messages ((a.after h).step i).2 ≠ [] → Session.StartsAnew later) ∧
      ∀ path content, (a.after h).Faces path →
        (Text.lines content).any (Marker.ofLine? · = some .trigger) →
          (messages (a.seen (.proceed :: .proceed :: .answer (.text content) :: .proceed :: h)) ≠
            messages (a.seen h) ↔ Session.StartsAnew later) := by
  have hheld : (a.view s h).held = false ↔ Session.StartsAnew later := by
    show Session.heldBy (a.calls h) = false ↔ _
    rw [hcalls]
    exact Session.heldBy_while_agent_works hworks earlier
  obtain ⟨ms, hstand, -⟩ := stand_after begins hplays
  refine ⟨fun i hne => hheld.1 (hstand.held_of_messages hne), fun path content hfaces hany => ?_⟩
  have ⟨id, g, w, hwork, _⟩ := hfaces
  obtain ⟨hreading, s', hrests⟩ := hstand.rests_of_event hwork
  rw [← hheld]
  by_cases hgoes : (a.view s h).held = false
  · have hheeds : (a.after h).Heeds path := (hstand.heeds_iff hfaces).2 hgoes
    refine iff_of_true ?_ hgoes
    rw [messages_of_heeds begins hplays hheeds ((Block.anyTrigger_ofContent ..).trans hany)]
    simp
  · refine iff_of_false (not_not.2 ?_) hgoes
    have hpauses : a.Pauses h := ⟨hplays, Bool.of_not_eq_false hgoes, hreading⟩
    obtain ⟨hpauses, h₁⟩ := hpauses.cons begins (i := .proceed) fun _ h => by cases h
    obtain ⟨hpauses, h₂⟩ := hpauses.cons begins (i := .answer (.text content)) fun _ h => by cases h
    obtain ⟨hpauses, h₃⟩ := hpauses.cons begins (i := .proceed) fun _ h => by cases h
    obtain ⟨hpauses, h₄⟩ := hpauses.cons begins (i := .proceed) fun _ h => by cases h
    rw [h₄, h₃, h₂, h₁]

/-! ## A session that is started again -/

/-- The agent is said to begin. -/
def agentStarted : History :=
  List.replicate 4 .proceed ++ [.call (.session .agentStart)]

/-- The watcher that is told to pause reads no file, and the one that a start puts in its place
does. -/
theorem delivery_while_agent_works_of_restart :
    let h := changed 0 "/w/a.py" ++ agentStarted ++ started (some "/w")
    let k := changed 1 "/w/a.py" ++ started (some "/w") ++ agentStarted ++ started (some "/w")
    let content : Outcome := .text "# do AI!"
    (aroundW.plays h ∧ aroundW.calls h = [] ++ .agentStart :: [.start (some "/w")] ∧
      (aroundW.after h).Faces "/w/a.py" ∧
      messages (aroundW.seen (.proceed :: .proceed :: .answer content :: .proceed :: h)) =
        messages (aroundW.seen h)) ∧
    (aroundW.plays k ∧
      aroundW.calls k = [.start (some "/w")] ++ .agentStart :: [.start (some "/w")] ∧
      (aroundW.after k).Faces "/w/a.py" ∧
      messages (aroundW.seen (.proceed :: .proceed :: .answer content :: .proceed :: k)) ≠
        messages (aroundW.seen k)) := by
  intro h k content
  have begins : aroundW.BeginsWith inW := ⟨_, _, _, _, rfl, rfl⟩
  have hany : (Text.lines "# do AI!").any (Marker.ofLine? · = some .trigger) := by decide
  have hplays : aroundW.plays h := by decide
  have hcalls : aroundW.calls h = [] ++ .agentStart :: [.start (some "/w")] := rfl
  have hfaces : (aroundW.after h).Faces "/w/a.py" := ⟨0, 1, _, rfl, rfl, rfl, by decide, by decide⟩
  have hplays' : aroundW.plays k := by decide
  have hcalls' : aroundW.calls k = [.start (some "/w")] ++ .agentStart :: [.start (some "/w")] :=
    rfl
  have hfaces' : (aroundW.after k).Faces "/w/a.py" :=
    ⟨1, 1, _, rfl, rfl, rfl, by decide, by decide⟩
  obtain ⟨-, hpaused⟩ := delivery_while_agent_works begins hplays hcalls List.not_mem_nil
  obtain ⟨-, hgoes⟩ := delivery_while_agent_works begins hplays' hcalls' (by simp)
  refine ⟨⟨hplays, hcalls, hfaces, ?_⟩, hplays', hcalls', hfaces', ?_⟩
  · by_contra hne
    obtain ⟨newer, cwd, older, hnil, -⟩ := (hpaused _ _ hfaces hany).1 hne
    exact absurd hnil (by simp)
  · exact (hgoes _ _ hfaces' hany).2 ⟨[], _, [], rfl, List.not_mem_nil⟩

/-- **A start undoes the pause**: the agent was said to begin and not yet to have done, and a
message is delivered. -/
theorem delivery_after_restart :
    let h := [.proceed, .answer (.text "# do AI!"), .proceed] ++ changed 1 "/w/a.py" ++
      started (some "/w") ++ agentStarted ++ started (some "/w")
    aroundW.BeginsWith inW ∧ aroundW.plays h ∧
      aroundW.calls h = [.start (some "/w"), .agentStart, .start (some "/w")] ∧
      messages ((aroundW.after h).step .proceed).2 ≠ [] := by
  intro h
  exact ⟨⟨_, _, _, _, rfl, rfl⟩, by decide, rfl, by decide⟩

end Assembly

end Marginalia

import Restyle.Proofs.Review.Consent

/-!
Quitting. A review that the user quits on the console is over: nothing is asked or written after
that, and the outcomes end with the mark of it. Whoever quits in the window only leaves out one
file. The main statement is that the wish to quit is heeded exactly on the console.
-/

namespace Restyle.Review

open Disk (Path)

variable {es : List Event} {os : List Outcome} {g : Group}

/-- The user quits, on the console or in the window. -/
def Event.isQuit : Event → Bool
  | .answered _ .quit => true
  | .chosen _ .quit _ => true
  | _ => false

/-- A wish to quit is heeded: nothing is asked or written after it, and an outcome tells of it. -/
def Heeded (later : List Event) (r : Except Stop (List Outcome)) : Prop :=
  deeds later = [] ∧ ∃ os, r = .ok os ∧ ∃ o ∈ os, o.error = some quitError

/-- The user does not quit on the console. -/
def Calm (es : List Event) : Prop := ∀ p, .answered p .quit ∉ es

theorem Calm.append {fs : List Event} (h : Calm es) (h' : Calm fs) : Calm (es ++ fs) := by
  intro p hmem
  rcases List.mem_append.mp hmem with hmem | hmem
  · exact h p hmem
  · exact h' p hmem

theorem calm_nil : Calm [] := fun _ => List.not_mem_nil

theorem calm_questions (n : Nat) : Calm (List.replicate n .question) := by
  intro p hmem
  cases List.eq_of_mem_replicate hmem

theorem calm_ofAnswer (p : Path) {a : Except Stop Verdict} (h : Confirmation.ofAnswer a ≠ .quit) :
    Calm [.ofAnswer p a] := by
  intro q hmem
  rcases a with e | v
  · simp [Event.ofAnswer] at hmem
  · cases v with
    | quit => exact h rfl
    | _ => simp [Event.ofAnswer] at hmem

theorem calm_brokenOff (p : Path) (b : Breakdown) : Calm [.brokenOff p b] := by
  intro q hmem
  simp at hmem

theorem Prompted.calm {p : Path} {c : Confirmation} (h : Prompted p es c) (hc : c ≠ .quit) :
    Calm es := by
  cases h with
  | window choice all =>
    intro q hmem
    simp at hmem
  | interrupted => exact calm_brokenOff p .interrupt
  | console n a => exact (calm_questions n).append (calm_ofAnswer p hc)
  | fallback n a =>
    exact (calm_brokenOff p .displayLost).append ((calm_questions n).append (calm_ofAnswer p hc))

theorem ofAnswer_eq_quit {a : Except Stop Verdict} (h : Confirmation.ofAnswer a = .quit) :
    a = .ok .quit := by
  rw [← Confirmation.result_ofAnswer a, h]
  rfl

/-- Where a confirmation ends with a quit, that is the last of its events. -/
theorem Prompted.quit_last {p : Path} (h : Prompted p es .quit) :
    ∃ es', es = es' ++ [.answered p .quit] ∧ Calm es' := by
  generalize hc : Confirmation.quit = c at h
  cases h with
  | window choice all => cases hc
  | interrupted => cases hc
  | console n a =>
    cases ofAnswer_eq_quit hc.symm
    exact ⟨_, rfl, calm_questions n⟩
  | fallback n a =>
    cases ofAnswer_eq_quit hc.symm
    exact ⟨_, rfl, (calm_brokenOff p .displayLost).append (calm_questions n)⟩

/-! ### Visits -/

theorem Followed.isQuit {rs : List FileResult} (h : Followed rs es os) :
    ∀ o ∈ os, o.isQuit = false := by
  induction h with
  | nil => simp
  | cons w rest ih =>
    intro o ho
    rcases List.mem_cons.mp ho with rfl | ho
    · exact isQuit_written _ w false
    · exact ih o ho

theorem Applied.isQuit (h : Applied g es os) : ∀ o ∈ os, o.isQuit = false := by
  intro o ho
  cases h with
  | failed w hw =>
    rw [List.mem_singleton.mp ho]
    exact isQuit_written _ w true
  | done w hw rest =>
    rcases List.mem_cons.mp ho with rfl | ho
    · exact isQuit_written _ w true
    · exact rest.isQuit o ho

theorem Visit.calm {st st' : Standing} (h : Visit g st es os st') : Calm es := by
  obtain ⟨asked, written, rfl, hasked, hwritten⟩ := h.parts
  apply Calm.append
  · cases hasked with
    | standing => exact calm_nil
    | prompted prompted hc => exact prompted.calm hc
  · intro p hmem
    obtain ⟨r, -, ok, heq⟩ := hwritten _ hmem
    cases heq

/-- No outcome of a visit after which the review goes on tells of a quit. -/
theorem Visit.isQuit {st st' : Standing} (h : Visit g st es os st') :
    ∀ o ∈ os, o.isQuit = false := by
  cases h with
  | applied consent applied => exact applied.isQuit
  | leftOut dissent => simp [Outcome.leftOut, Outcome.isQuit]
  | ended hopen prompted =>
    intro o ho
    rw [List.mem_singleton.mp ho]
    rfl

/-- Along a chain of visits the user does not quit on the console and no outcome says so, or the
quit is the last event and the last outcome. -/
theorem Trace.calm_or_quit {st st' : Standing} {gs : List Group} {r : Except Stop (List Outcome)}
    (h : Trace st gs es r st') :
    (Calm es ∧ ∀ os, r = .ok os → ∀ o ∈ os, o.isQuit = false) ∨
      ∃ es' p os, es = es' ++ [.answered p .quit] ∧ Calm es' ∧ r = .ok (os ++ [.quit p]) := by
  induction h with
  | nil | closed =>
    refine .inl ⟨calm_nil, ?_⟩
    rintro os ⟨⟩ o ho
    cases ho
  | last hopen ending =>
    cases ending with
    | quit hopen prompted =>
      obtain ⟨es', hes, hcalm⟩ := prompted.quit_last
      exact .inr ⟨es', _, [], hes, hcalm, rfl⟩
    | interrupted hopen prompted => exact .inl ⟨prompted.calm nofun, nofun⟩
  | @next _ _ _ _ _ es fs os r hopen visit rest ih =>
    have hcalm := visit.calm
    rcases ih with ⟨hcalm', hr⟩ | ⟨fs', p, os', rfl, hcalm', rfl⟩
    · refine .inl ⟨hcalm.append hcalm', ?_⟩
      intro os' hos' o ho
      cases r with
      | error e => cases hos'
      | ok outcomes =>
        cases hos'
        rcases List.mem_append.mp ho with ho | ho
        · exact visit.isQuit o ho
        · exact hr outcomes rfl o ho
    · refine .inr ⟨es ++ fs', p, os ++ os', ?_, hcalm.append hcalm', ?_⟩
      · rw [List.append_assoc]
      · rw [List.append_assoc]
        rfl

/-! ### Reviews -/

theorem isQuit_failed (r : FileResult) : (Outcome.failed r).isQuit = false := by
  have herror := append_ne_quitError "Processing failed: " (r.error.getD "None") (by decide)
    (by decide)
  exact beq_false_of_ne fun heq => herror (Option.some.inj heq)

theorem isQuit_iff (o : Outcome) : o.isQuit = true ↔ o.error = some quitError := by
  simp [Outcome.isQuit]

theorem heeded_append_failures (rs : List FileResult) (later : List Event)
    (r : Except Stop (List Outcome)) :
    Heeded later (r.map (failures rs ++ ·)) ↔
      deeds later = [] ∧ ∃ os, r = .ok os ∧ ∃ o ∈ os, o.isQuit = true := by
  unfold Heeded
  simp only [← isQuit_iff]
  constructor
  · rintro ⟨hlater, os, hr, o, ho, hmark⟩
    refine ⟨hlater, ?_⟩
    cases r with
    | error stop => cases hr
    | ok outcomes =>
      cases hr
      rcases List.mem_append.mp ho with hfailed | ho
      · obtain ⟨f, -, rfl⟩ := List.mem_map.mp hfailed
        rw [isQuit_failed] at hmark
        cases hmark
      · exact ⟨outcomes, rfl, o, ho, hmark⟩
  · rintro ⟨hlater, os, rfl, o, ho, hmark⟩
    exact ⟨hlater, _, rfl, o, List.mem_append_right _ ho, hmark⟩

/-- Along a chain of visits, a quit is the last event and is told by an outcome exactly if it is
said on the console. -/
theorem Trace.last_quit_iff {st st' : Standing} {gs : List Group} {pre post : List Event}
    {e : Event} {r : Except Stop (List Outcome)} (h : Trace st gs (pre ++ e :: post) r st') :
    (post = [] ∧ ∃ os, r = .ok os ∧ ∃ o ∈ os, o.isQuit = true) ↔ ∃ p, e = .answered p .quit := by
  rcases h.calm_or_quit with ⟨hcalm, hos⟩ | ⟨es', p, os, hes, hcalm, rfl⟩
  · constructor
    · rintro ⟨-, os, hr, o, ho, hmark⟩
      rw [hos os hr o ho] at hmark
      cases hmark
    · rintro ⟨p, rfl⟩
      exact absurd (List.mem_append_right _ List.mem_cons_self) (hcalm p)
  · constructor
    · rintro ⟨rfl, -⟩
      obtain ⟨-, hlast⟩ := List.append_inj' hes rfl
      exact ⟨p, List.singleton_inj.mp hlast⟩
    · rintro ⟨q, rfl⟩
      refine ⟨?_, _, rfl, .quit p, by simp, rfl⟩
      rcases List.eq_nil_or_concat post with hnil | ⟨init, last, rfl⟩
      · exact hnil
      · -- an earlier quit would be among the events before the last one
        rw [List.concat_eq_append, ← List.cons_append, ← List.append_assoc] at hes
        obtain ⟨hinit, -⟩ := List.append_inj' hes rfl
        exact absurd (hinit ▸ List.mem_append_right _ List.mem_cons_self) (hcalm q)

/-- A wish to quit is heeded exactly if it is said on the console. -/
theorem quit_heeded_iff_on_console (settings : Settings) (write : Output.Writer)
    (rs : List FileResult) (s : State) (pre post : List Event) (e : Event)
    (hquit : e.isQuit = true)
    (hlog : (perform (reviewWith settings write rs) s).2.desk.log =
      s.desk.log ++ (pre ++ e :: post)) :
    Heeded post (perform (reviewWith settings write rs) s).1 ↔ ∃ p, e = .answered p .quit := by
  obtain ⟨_, r, s', hrun, ⟨log, hlater, rfl⟩, htrace⟩ := perform_reviewWith settings write rs s
  rw [hrun] at hlog ⊢
  cases List.append_cancel_left (hlater.symm.trans hlog)
  have hdeed : deeds [e] = [e] := by
    cases e with
    | line text => cases hquit
    | _ => rfl
  have hsplit : deeds (pre ++ e :: post) = deeds pre ++ e :: deeds post := by
    rw [List.append_cons, deeds_append, deeds_append, hdeed, List.append_assoc]
    rfl
  rw [hsplit] at htrace
  rw [heeded_append_failures, htrace.last_quit_iff]

def sampleDefinitions : List FileResult :=
  [⟨⟨"", ["first.py"]⟩, true, "def oldName(): pass", some "def old_name(): pass",
      ["Renamed function 'oldName' to 'old_name'"], none⟩,
    ⟨⟨"", ["second.py"]⟩, true, "def nextName(): pass", some "def next_name(): pass",
      ["Renamed function 'nextName' to 'next_name'"], none⟩]

/-- The review of the two files by a user who quits on the console. -/
def consoleQuit : Except Stop (List Outcome) × State :=
  perform (reviewWith .usual dryWrite sampleDefinitions)
    ⟨.start, consoleDesk ⟨.dir .directory [], false, none⟩ ["q", "y"]⟩

theorem quit_heeded_iff_on_console_sample :
    (consoleQuit.2.desk.log =
        [] ++ (consoleQuit.2.desk.log.dropLast ++ .answered ⟨"", ["first.py"]⟩ .quit :: [])) ∧
      (Heeded [] consoleQuit.1 ↔
        ∃ p, Event.answered ⟨"", ["first.py"]⟩ .quit = .answered p .quit) :=
  have hlog : consoleQuit.2.desk.log =
      [] ++ (consoleQuit.2.desk.log.dropLast ++ .answered ⟨"", ["first.py"]⟩ .quit :: []) := by
    decide +kernel
  ⟨hlog, quit_heeded_iff_on_console _ _ _ ⟨.start, consoleDesk _ _⟩ _ _ _ rfl hlog⟩

def sampleDisk : Disk :=
  ⟨.dir .directory
    [("first.py", .file .file (Text.encode "def oldName(): pass".toList)),
      ("second.py", .file .file (Text.encode "def nextName(): pass".toList))], false, some []⟩

/-- The review of the two files by a user who quits in the window, and then sees it again. -/
def windowQuit : Except Stop (List Outcome) × State :=
  perform (review .usual sampleDefinitions)
    ⟨.start, ⟨sampleDisk, [], none, [⟨.quit true, none⟩, ⟨.apply, none⟩], true, .standard, []⟩⟩

/-- After a quit in the window the next file is shown and written, and no outcome tells of the
quit. -/
theorem window_quit_unheeded :
    deeds windowQuit.2.desk.log =
        [.chosen ⟨"", ["first.py"]⟩ .quit false, .chosen ⟨"", ["second.py"]⟩ .apply false,
          .write ⟨"", ["second.py"]⟩ (some "def next_name(): pass") true] ∧
      windowQuit.1.toOption.map (fun os => os.map (·.error)) = some [none, none] := by
  decide +kernel

end Restyle.Review

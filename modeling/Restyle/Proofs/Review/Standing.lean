import Mathlib.Logic.Relation
import Restyle.Proofs.Review.Quit

/-!
Decisions for all files. The user can decide once for all files that are still to come, in this
review and in every later one. The main statement is that such a decision excludes the other one
and is never taken back, and that from then on nobody is asked: the file of every group is written,
or it is left out.
-/

namespace Restyle.Review

open Disk (Path)

variable {st st' : Standing} {g : Group} {os : List Outcome} {settings : Settings}
  {write : Output.Writer} {log : List Event}

/-! ### Reviews one after the other -/

/-- Where a reviewer is: the state, and the groups that are still to come in this review. -/
structure Position where
  state : State
  pending : List Group

def Position.standing (p : Position) : Standing := p.state.standing

/-- What a reviewer does. Between two reviews the desk may change in any way, and the user may be
about to do anything. -/
inductive Step (settings : Settings) (write : Output.Writer) : Position → Position → Prop
  /-- A whole review. -/
  | review (p : Position) (desk : Desk) (rs : List FileResult) :
      Step settings write p
        ⟨(perform (reviewWith settings write rs) ⟨p.standing, desk⟩).2, []⟩
  /-- A review begins. -/
  | enter (p : Position) (desk : Desk) (rs : List FileResult) :
      Step settings write p ⟨⟨p.standing, desk⟩, groups (changed rs)⟩
  /-- The next group of a review that has begun. -/
  | visit (s : State) (g : Group) (gs : List Group) :
      Step settings write ⟨s, g :: gs⟩ ⟨(perform (reviewGroups settings write [g]) s).2, gs⟩

abbrev Reaches (settings : Settings) (write : Output.Writer) : Position → Position → Prop :=
  Relation.ReflTransGen (Step settings write)

def Reachable (settings : Settings) (write : Output.Writer) (p : Position) : Prop :=
  ∃ desk, Reaches settings write ⟨⟨.start, desk⟩, []⟩ p

/-- Whatever a reviewer does, the standing decisions change along a chain of visits. -/
theorem Step.trace {p q : Position} (h : Step settings write p q) :
    ∃ gs es r, Trace p.standing gs es r q.standing := by
  cases h with
  | review p desk rs =>
    obtain ⟨es, r, s', hrun, -, htrace⟩ := perform_reviewWith settings write rs ⟨p.standing, desk⟩
    rw [hrun]
    exact ⟨_, es, r, htrace⟩
  | enter p desk rs => exact ⟨[], [], .ok [], .nil _⟩
  | visit s g gs =>
    obtain ⟨es, r, s', hrun, -, htrace⟩ := perform_reviewGroups settings write [g] s
    rw [hrun]
    exact ⟨_, es, r, htrace⟩

/-! ### One decision at most -/

/-- At most one thing has been decided: to apply all, to skip all, or to quit. -/
structure Standing.Sound (st : Standing) : Prop where
  exclusive : st.applyAll = true → st.skipAll = false
  applying : st.applyAll = true → st.quit = false
  skipping : st.skipAll = true → st.quit = false

theorem Standing.Open.sound (h : st.Open) : st.Sound where
  exclusive hall := by simp [h.1] at hall
  applying hall := by simp [h.1] at hall
  skipping hskip := by simp [h.2] at hskip

theorem Standing.Open.sound_after (h : st.Open) (hquit : st.quit = false) (apply all : Bool) :
    (st.after apply all).Sound := by
  cases all with
  | false =>
    have hafter : st.after apply false = st := by simp [Standing.after]
    rw [hafter]
    exact h.sound
  | true =>
    cases apply with
    | true => exact ⟨fun _ => h.2, fun _ => hquit, fun _ => hquit⟩
    | false =>
      have hall : (st.after false true).applyAll = false := h.1
      exact ⟨fun hyes => by simp [hall] at hyes, fun _ => hquit, fun _ => hquit⟩

theorem Visit.sound {es : List Event} (h : Visit g st es os st') (hst : st.Sound)
    (hquit : st.quit = false) : st'.Sound := by
  cases h with
  | applied consent _ =>
    cases consent with
    | standing => exact hst
    | given hopen _ => exact hopen.sound_after hquit _ _
  | leftOut dissent =>
    cases dissent with
    | standing => exact hst
    | given hopen _ => exact hopen.sound_after hquit _ _
  | ended => exact hst

theorem Trace.sound {gs : List Group} {es : List Event} {r : Except Stop (List Outcome)}
    (h : Trace st gs es r st') (hst : st.Sound) : st'.Sound := by
  induction h with
  | nil | closed => exact hst
  | last _ ending =>
    cases ending with
    | quit hopen _ => exact Standing.Open.sound ⟨hopen.1, hopen.2⟩
    | interrupted => exact hst
  | next hquit visit _ ih => exact ih (visit.sound hst hquit)

theorem Reachable.sound {p : Position} (h : Reachable settings write p) : p.standing.Sound := by
  obtain ⟨desk, hreach⟩ := h
  induction hreach with
  | refl =>
    have hopen : Standing.start.Open := ⟨rfl, rfl⟩
    exact hopen.sound
  | tail _ hstep ih =>
    obtain ⟨gs, es, r, htrace⟩ := hstep.trace
    exact htrace.sound ih

/-! ### Visits under a decision for all -/

def Event.isPrompt : Event → Bool
  | .line _ => false
  | .write _ _ _ => false
  | _ => true

theorem Applied.not_prompt {es : List Event} (h : Applied g es os) :
    ∀ e ∈ es, e.isPrompt = false := by
  intro e he
  obtain ⟨r, -, ok, rfl⟩ := h.writes e he
  rfl

/-- The file of a group is written, with an outcome that tells how that went. -/
def WrittenFor (g : Group) (es : List Event) (os : List Outcome) : Prop :=
  ∃ w : Output.WriteResult, .write g.definition.path g.definition.code w.outcome.isOk ∈ es ∧
    .written g.definition.path w true ∈ os

theorem Applied.writtenFor {es : List Event} (h : Applied g es os) : WrittenFor g es os := by
  cases h with
  | failed w hw => exact ⟨w, by simp [hw], List.mem_cons_self⟩
  | done w hw rest => exact ⟨w, by simp [hw], List.mem_cons_self⟩

theorem Visit.of_applyAll {es : List Event} (h : Visit g st es os st') (hall : st.applyAll = true) :
    st' = st ∧ Applied g es os := by
  cases h with
  | applied consent applied =>
    cases consent with
    | standing => exact ⟨rfl, applied⟩
    | given hopen _ => simp [hopen.1] at hall
  | leftOut dissent =>
    cases dissent with
    | standing hno _ => simp [hno] at hall
    | given hopen _ => simp [hopen.1] at hall
  | ended hopen _ => simp [hopen.1] at hall

theorem Visit.of_skipAll {es : List Event} (h : Visit g st es os st') (hskip : st.skipAll = true)
    (hall : st.applyAll = false) : st' = st ∧ es = [] ∧ os = [.leftOut g.definition.path] := by
  cases h with
  | applied consent _ =>
    cases consent with
    | standing hyes => simp [hall] at hyes
    | given hopen _ => simp [hopen.2] at hskip
  | leftOut dissent =>
    cases dissent with
    | standing => exact ⟨rfl, rfl, rfl⟩
    | given hopen _ => simp [hopen.2] at hskip
  | ended hopen _ => simp [hopen.2] at hskip

theorem Ending.open {es : List Event} {r : Except Stop (List Outcome)} (h : Ending g st es r st') :
    st.Open := by
  cases h with
  | quit hopen _ => exact hopen
  | interrupted hopen _ => exact hopen

/-- Where all is to be applied, a chain of visits asks nothing and writes the file of every group,
and the decision stands. -/
theorem Trace.of_applyAll {gs : List Group} {es : List Event} {r : Except Stop (List Outcome)}
    (h : Trace st gs es r st') (hst : st.Sound) (hall : st.applyAll = true) :
    st' = st ∧ (∀ e ∈ es, e.isPrompt = false) ∧
      ∃ os, r = .ok os ∧ ∀ g ∈ gs, WrittenFor g es os := by
  induction h with
  | nil => exact ⟨rfl, nofun, [], rfl, nofun⟩
  | closed hquit => simp [hst.applying hall] at hquit
  | last _ ending => simp [ending.open.1] at hall
  | next _ visit _ ih =>
    obtain ⟨rfl, happlied⟩ := visit.of_applyAll hall
    obtain ⟨rfl, hasked, os', rfl, hwritten⟩ := ih hst hall
    refine ⟨rfl, List.forall_mem_append.mpr ⟨happlied.not_prompt, hasked⟩, _, rfl, ?_⟩
    intro g hg
    rcases List.mem_cons.mp hg with rfl | hg
    · obtain ⟨w, he, ho⟩ := happlied.writtenFor
      exact ⟨w, List.mem_append_left _ he, List.mem_append_left _ ho⟩
    · obtain ⟨w, he, ho⟩ := hwritten g hg
      exact ⟨w, List.mem_append_right _ he, List.mem_append_right _ ho⟩

/-- Where all is to be skipped, a chain of visits does nothing but leave every group out. -/
theorem Trace.of_skipAll {gs : List Group} {es : List Event} {r : Except Stop (List Outcome)}
    (h : Trace st gs es r st') (hst : st.Sound) (hskip : st.skipAll = true) :
    st' = st ∧ es = [] ∧ r = .ok (gs.map fun g => .leftOut g.definition.path) := by
  have hall : st.applyAll = false := by
    by_contra hyes
    simp [hst.exclusive (by simpa using hyes)] at hskip
  induction h with
  | nil => exact ⟨rfl, rfl, rfl⟩
  | closed hquit => simp [hst.skipping hskip] at hquit
  | last _ ending => simp [ending.open.2] at hskip
  | next _ visit _ ih =>
    obtain ⟨rfl, rfl, rfl⟩ := visit.of_skipAll hskip hall
    obtain ⟨rfl, rfl, rfl⟩ := ih hst hskip hall
    exact ⟨rfl, rfl, rfl⟩

/-! ### The decision stands -/

/-- A decision for all files is never changed. -/
theorem Reaches.standing_eq {p q : Position} (h : Reaches settings write p q)
    (hp : p.standing.Sound) (hdecided : p.standing.applyAll = true ∨ p.standing.skipAll = true) :
    q.standing = p.standing := by
  induction h with
  | refl => rfl
  | tail _ hstep ih =>
    obtain ⟨gs, es, r, htrace⟩ := hstep.trace
    rw [ih] at htrace
    rcases hdecided with hall | hskip
    · exact (htrace.of_applyAll hp hall).1
    · exact (htrace.of_skipAll hp hskip).1

/-- From `s` on nothing is asked, and the file of every group is written. -/
def WritesAll (s : State) (gs : List Group) (x : Except Stop (List Outcome) × State) : Prop :=
  ∃ es os, x.1 = .ok os ∧ x.2.desk.log = s.desk.log ++ es ∧ (∀ e ∈ es, e.isPrompt = false) ∧
    ∀ g ∈ gs, WrittenFor g es os

/-- From `s` on lines are told and nothing else happens, and after the outcomes `failed` there is
one for every group, that its file is left out. -/
def SkipsAll (s : State) (failed : List Outcome) (gs : List Group)
    (x : Except Stop (List Outcome) × State) : Prop :=
  ∃ es, x.1 = .ok (failed ++ gs.map fun g => .leftOut g.definition.path) ∧
    x.2.desk.log = s.desk.log ++ es ∧ ∀ e ∈ es, e.isLine = true

theorem not_prompt_of_deeds (h : ∀ e ∈ deeds log, e.isPrompt = false) :
    ∀ e ∈ log, e.isPrompt = false := by
  intro e he
  cases e with
  | line text => rfl
  | _ => exact h _ (List.mem_filter.mpr ⟨he, rfl⟩)

theorem isLine_of_deeds (h : deeds log = []) : ∀ e ∈ log, e.isLine = true := by
  simpa [deeds, List.filter_eq_nil_iff] using h

theorem mem_of_mem_deeds {e : Event} (h : e ∈ deeds log) : e ∈ log :=
  List.mem_of_mem_filter h

section Decided

variable {s s' : State} {gs : List Group} {es : List Event} {r : Except Stop (List Outcome)}

theorem Trace.writesAll (htrace : Trace s.standing gs es r s'.standing) (hlater : Later s es s')
    (hst : s.standing.Sound) (hall : s.standing.applyAll = true) (failed : List Outcome) :
    WritesAll s gs (r.map (failed ++ ·), s') := by
  obtain ⟨log, hlog, rfl⟩ := hlater
  obtain ⟨-, hasked, os, rfl, hwritten⟩ := htrace.of_applyAll hst hall
  refine ⟨log, failed ++ os, rfl, hlog, not_prompt_of_deeds hasked, ?_⟩
  intro g hg
  obtain ⟨w, he, ho⟩ := hwritten g hg
  exact ⟨w, mem_of_mem_deeds he, List.mem_append_right _ ho⟩

theorem Trace.skipsAll (htrace : Trace s.standing gs es r s'.standing) (hlater : Later s es s')
    (hst : s.standing.Sound) (hskip : s.standing.skipAll = true) (failed : List Outcome) :
    SkipsAll s failed gs (r.map (failed ++ ·), s') := by
  obtain ⟨log, hlog, rfl⟩ := hlater
  obtain ⟨-, hdeeds, rfl⟩ := htrace.of_skipAll hst hskip
  exact ⟨log, rfl, hlog, isLine_of_deeds hdeeds⟩

end Decided

/-- What is left of a review, and every later review, does what has been decided for all. -/
structure Position.Decided (settings : Settings) (write : Output.Writer) (q : Position)
    (does : State → List Outcome → List Group → Except Stop (List Outcome) × State → Prop) :
    Prop where
  rest : does q.state [] q.pending (perform (reviewGroups settings write q.pending) q.state)
  later : ∀ desk rs, does ⟨q.standing, desk⟩ (failures rs) (groups (changed rs))
    (perform (reviewWith settings write rs) ⟨q.standing, desk⟩)

/-- It is enough to look at chains of visits. -/
theorem Position.Decided.of_trace (settings : Settings) (write : Output.Writer) {q : Position}
    {does : State → List Outcome → List Group → Except Stop (List Outcome) × State → Prop}
    (h : ∀ s gs es r s' failed, s.standing = q.standing → Trace s.standing gs es r s'.standing →
      Later s es s' → does s failed gs (r.map (failed ++ ·), s')) :
    q.Decided settings write does where
  rest := by
    obtain ⟨es, r, s', hrun, hlater, htrace⟩ :=
      perform_reviewGroups settings write q.pending q.state
    have hnone : r.map ([] ++ ·) = r := by cases r <;> rfl
    rw [hrun, ← hnone]
    exact h _ _ es r s' [] rfl htrace hlater
  later desk rs := by
    obtain ⟨es, r, s', hrun, hlater, htrace⟩ :=
      perform_reviewWith settings write rs ⟨q.standing, desk⟩
    rw [hrun]
    exact h _ _ es r s' (failures rs) rfl htrace hlater

/-- Wherever a reviewer can come to, it has not been decided to apply all and to skip all; and
wherever the reviewer goes from there, in this review or in later ones, a decision for all stands,
nobody is asked, and the file of every group still to come is written, or left out. -/
theorem decision_for_all_absorbing (settings : Settings) (write : Output.Writer) (p : Position)
    (h : Reachable settings write p) :
    ¬ (p.standing.applyAll = true ∧ p.standing.skipAll = true) ∧
      ∀ q, Reaches settings write p q →
        (p.standing.applyAll = true → q.standing.applyAll = true ∧
          q.Decided settings write fun s _ => WritesAll s) ∧
        (p.standing.skipAll = true → q.standing.skipAll = true ∧
          q.Decided settings write SkipsAll) := by
  have hsound := h.sound
  refine ⟨?_, fun q hreach => ⟨fun hall => ?_, fun hskip => ?_⟩⟩
  · rintro ⟨hall, hskip⟩
    simp [hsound.exclusive hall] at hskip
  · have hsame := hreach.standing_eq hsound (.inl hall)
    refine ⟨by rw [hsame, hall], .of_trace settings write ?_⟩
    intro s gs es r s' failed hs htrace hlater
    rw [hsame] at hs
    exact htrace.writesAll hlater (hs ▸ hsound) (hs ▸ hall) failed
  · have hsame := hreach.standing_eq hsound (.inr hskip)
    refine ⟨by rw [hsame, hskip], .of_trace settings write ?_⟩
    intro s gs es r s' failed hs htrace hlater
    rw [hsame] at hs
    exact htrace.skipsAll hlater (hs ▸ hsound) (hs ▸ hskip) failed

/-- A desk with a window, at which the user is about to apply the change to all files. -/
def windowDesk : Desk :=
  ⟨sampleDisk, [], none, [⟨.apply, some true⟩], true, .standard, []⟩

/-- After the first of two files, which the user has decided about for all. -/
def decidedPosition : Position :=
  ⟨(perform (reviewGroups .usual dryWrite [⟨sampleDefinitions[0], [], ["oldName"]⟩])
      ⟨.start, windowDesk⟩).2,
    [⟨sampleDefinitions[1], [], ["nextName"]⟩]⟩

theorem decision_for_all_absorbing_sample :
    Reachable .usual dryWrite decidedPosition ∧ decidedPosition.standing.applyAll = true ∧
      decidedPosition.standing.skipAll = false ∧
      decidedPosition.Decided .usual dryWrite fun s _ => WritesAll s := by
  have hgroups : groups (changed sampleDefinitions) =
      [⟨sampleDefinitions[0], [], ["oldName"]⟩, ⟨sampleDefinitions[1], [], ["nextName"]⟩] := by
    decide +kernel
  have hreach : Reachable .usual dryWrite decidedPosition := by
    refine ⟨windowDesk, .tail (.single (.enter _ windowDesk sampleDefinitions)) ?_⟩
    rw [hgroups]
    exact .visit _ _ _
  have hall : decidedPosition.standing.applyAll = true := by decide +kernel
  obtain ⟨hexclusive, hlater⟩ := decision_for_all_absorbing .usual dryWrite decidedPosition hreach
  refine ⟨hreach, hall, ?_, ((hlater _ .refl).1 hall).2⟩
  simpa [hall] using hexclusive

end Restyle.Review

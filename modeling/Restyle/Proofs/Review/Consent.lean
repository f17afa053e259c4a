import Restyle.Proofs.Config.Settings
import Restyle.Proofs.Review.Grouping
import Restyle.Proofs.Review.Trace

/-!
Consent. What a review writes is read off its events alone: a group is written because its
confirmation said so or because an earlier one said so for all, and the files that follow are
written only after the file that leads. The main statement is that a review makes exactly these
calls, in this order, whatever the user answers and whichever writes fail.
-/

namespace Restyle.Review

open Disk (Path)

variable {es fs : List Event} {g : Group} {p q : Path} {os : List Outcome} {gs : List Group}
  {c : Confirmation}

/-! ### Reading events -/

def Event.call? : Event → Option (Path × Option String)
  | .write p code _ => some (p, code)
  | _ => none

def calls (es : List Event) : List (Path × Option String) := es.filterMap Event.call?

/-- The file whose confirmation an event ends, and how. A lost display ends none: the console is
asked next. -/
def Event.confirmation? : Event → Option (Path × Confirmation)
  | .answered p v => some (p, .ofAnswer (.ok v))
  | .unanswered p e => some (p, .ofAnswer (.error e))
  | .chosen p c all => some (p, .decided (c = .apply) all)
  | .brokenOff p .interrupt => some (p, .interrupted)
  | _ => none

def confirmations (es : List Event) : List (Path × Confirmation) :=
  es.filterMap Event.confirmation?

/-- How the confirmation of a group ended, if its file was confirmed at all. -/
def confirmation? (es : List Event) (g : Group) : Option Confirmation :=
  (confirmations es).lookup g.definition.path

/-- The user wants the changes of a group. -/
def agrees (es : List Event) (g : Group) : Bool :=
  confirmation? es g = some (.decided true false) || confirmation? es g = some (.decided true true)

/-- The user wants the changes of a group and of all groups after it. -/
def agreesToAll (es : List Event) (g : Group) : Bool :=
  confirmation? es g = some (.decided true true)

/-- The user quits at a group, or interrupts there. -/
def breaksOff (es : List Event) (g : Group) : Bool :=
  confirmation? es g = some .quit || confirmation? es g = some .interrupted

def callFor (r : FileResult) : Path × Option String := (r.path, r.code)

/-- The calls for a group: the file that leads and, if that was written, those that follow. -/
def groupCalls (es : List Event) (g : Group) : List (Path × Option String) :=
  callFor g.definition ::
    if .write g.definition.path g.definition.code true ∈ es then g.usages.map callFor else []

/-- The calls that the user has consented to, up to the first group at which the user breaks off.
The flag says whether an earlier consent goes for all groups. -/
def consentedCalls (es : List Event) (all : Bool) : List Group → List (Path × Option String)
  | [] => []
  | g :: gs =>
    if breaksOff es g then []
    else (if all || agrees es g then groupCalls es g else []) ++
      consentedCalls es (all || agreesToAll es g) gs

@[simp] theorem calls_append (es fs : List Event) : calls (es ++ fs) = calls es ++ calls fs :=
  List.filterMap_append

@[simp] theorem confirmations_append (es fs : List Event) :
    confirmations (es ++ fs) = confirmations es ++ confirmations fs := List.filterMap_append

theorem filterMap_deeds {α : Type} (f : Event → Option α) (hf : ∀ text, f (.line text) = none)
    (es : List Event) : (deeds es).filterMap f = es.filterMap f := by
  rw [deeds, List.filterMap_filter]
  congr 1
  funext e
  cases e with
  | line text => simp [Event.isLine, hf]
  | _ => simp [Event.isLine]

theorem calls_deeds (es : List Event) : calls (deeds es) = calls es :=
  filterMap_deeds Event.call? (fun _ => rfl) es

theorem confirmation?_deeds (es : List Event) (g : Group) :
    confirmation? (deeds es) g = confirmation? es g := by
  unfold confirmation? confirmations
  rw [filterMap_deeds Event.confirmation? (fun _ => rfl) es]

theorem write_mem_deeds (es : List Event) (p : Path) (code : Option String) (ok : Bool) :
    .write p code ok ∈ deeds es ↔ .write p code ok ∈ es := by
  simp [deeds, Event.isLine]

/-- Two lists of events tell the same about a group. -/
structure SameAbout (es fs : List Event) (g : Group) : Prop where
  confirmation : confirmation? es g = confirmation? fs g
  written : .write g.definition.path g.definition.code true ∈ es ↔
    .write g.definition.path g.definition.code true ∈ fs

theorem SameAbout.groupCalls (h : SameAbout es fs g) : groupCalls es g = groupCalls fs g := by
  unfold Review.groupCalls
  simp only [h.written]

theorem consentedCalls_congr (h : ∀ g ∈ gs, SameAbout es fs g) (all : Bool) :
    consentedCalls es all gs = consentedCalls fs all gs := by
  induction gs generalizing all with
  | nil => rfl
  | cons g gs ih =>
    have hg := h g List.mem_cons_self
    have hgs := ih fun k hk => h k (List.mem_cons_of_mem g hk)
    unfold consentedCalls breaksOff agrees agreesToAll
    rw [hg.confirmation, hg.groupCalls, hgs]

theorem sameAbout_deeds (es : List Event) (g : Group) : SameAbout (deeds es) es g :=
  ⟨confirmation?_deeds es g, write_mem_deeds es _ _ _⟩

/-! ### Events about other files -/

def Event.path? : Event → Option Path
  | .answered p _ => some p
  | .unanswered p _ => some p
  | .chosen p _ _ => some p
  | .brokenOff p _ => some p
  | .write p _ _ => some p
  | _ => none

def Silent (es : List Event) (p : Path) : Prop := ∀ e ∈ es, e.path? ≠ some p

theorem Event.path?_of_confirmation {e : Event} (h : e.confirmation? = some (p, c)) :
    e.path? = some p := by
  cases e with
  | brokenOff q b => cases b <;> simp_all [Event.confirmation?, Event.path?]
  | _ => simp_all [Event.confirmation?, Event.path?]

theorem Silent.confirmation? (h : Silent es g.definition.path) : confirmation? es g = none := by
  unfold Review.confirmation? confirmations
  rw [List.lookup_eq_none_iff]
  intro pc hpc
  obtain ⟨e, he, hconf⟩ := List.mem_filterMap.mp hpc
  have hpath := Event.path?_of_confirmation hconf
  rw [bne_iff_ne]
  intro heq
  rw [← heq] at hpath
  exact h e he hpath

theorem Silent.write_notMem (h : Silent es p) (code : Option String) (ok : Bool) :
    .write p code ok ∉ es := fun hmem => h _ hmem rfl

theorem confirmation?_append (es fs : List Event) (g : Group) :
    confirmation? (es ++ fs) g = (confirmation? es g).or (confirmation? fs g) := by
  unfold confirmation?
  rw [confirmations_append, List.lookup_append]

theorem sameAbout_append_left (h : Silent fs g.definition.path) : SameAbout (es ++ fs) es g := by
  constructor
  · rw [confirmation?_append, h.confirmation?, Option.or_none]
  · simp [h.write_notMem]

theorem sameAbout_append_right (h : Silent es g.definition.path) : SameAbout (es ++ fs) fs g := by
  constructor
  · rw [confirmation?_append, h.confirmation?, Option.none_or]
  · simp [h.write_notMem]

/-! ### What a visit writes -/

@[simp] theorem path?_ofAnswer (p : Path) (a : Except Stop Verdict) :
    (Event.ofAnswer p a).path? = some p := by
  cases a <;> rfl

/-- The questions on the console make no call and end with one confirmation. -/
theorem read_console (p : Path) (n : Nat) (a : Except Stop Verdict) :
    calls (List.replicate n .question ++ [.ofAnswer p a]) = [] ∧
      confirmations (List.replicate n .question ++ [.ofAnswer p a]) = [(p, .ofAnswer a)] := by
  cases a <;>
    simp [calls, confirmations, List.filterMap_replicate, Event.call?, Event.confirmation?,
      Event.ofAnswer]

theorem Prompted.calls (h : Prompted p es c) : calls es = [] := by
  cases h with
  | window choice all => rfl
  | interrupted => rfl
  | console n a => exact (read_console p n a).1
  | fallback n a => exact (read_console p n a).1

theorem Prompted.confirmations (h : Prompted p es c) : confirmations es = [(p, c)] := by
  cases h with
  | window choice all => rfl
  | interrupted => rfl
  | console n a => exact (read_console p n a).2
  | fallback n a => exact (read_console p n a).2

theorem Prompted.confirmation? (h : Prompted g.definition.path es c) :
    confirmation? es g = some c := by
  unfold Review.confirmation?
  rw [h.confirmations, List.lookup_cons_self]

theorem Prompted.silent (h : Prompted p es c) (hne : p ≠ q) : Silent es q := by
  intro e he
  cases h with
  | window choice all => simp_all [Event.path?]
  | interrupted => simp_all [Event.path?]
  | console n a =>
    rcases List.mem_append.mp he with he | he
    · simp [List.eq_of_mem_replicate he, Event.path?]
    · simp_all
  | fallback n a =>
    rcases List.mem_cons.mp he with rfl | he
    · simpa [Event.path?] using hne
    · rcases List.mem_append.mp he with he | he
      · simp [List.eq_of_mem_replicate he, Event.path?]
      · simp_all

theorem Followed.calls {rs : List FileResult} (h : Followed rs es os) :
    calls es = rs.map callFor := by
  induction h with
  | nil => rfl
  | cons w rest ih => simpa [Review.calls, Event.call?, callFor] using ih

theorem Applied.calls (h : Applied g es os) : calls es = groupCalls es g := by
  cases h with
  | failed w hw => simp [Review.calls, Event.call?, groupCalls, callFor]
  | done w hw rest =>
    unfold groupCalls
    rw [if_pos List.mem_cons_self, ← rest.calls]
    rfl

theorem Applied.confirmations (h : Applied g es os) : confirmations es = [] := by
  apply List.filterMap_eq_nil_iff.mpr
  intro e he
  obtain ⟨r, -, ok, rfl⟩ := h.writes e he
  rfl

theorem Applied.confirmation? (h : Applied g es os) : confirmation? es g = none := by
  unfold Review.confirmation?
  rw [h.confirmations, List.lookup_nil]

theorem Prompted.groupCalls_append (h : Prompted p es c) (g : Group) :
    groupCalls (es ++ fs) g = groupCalls fs g := by
  have hno : .write g.definition.path g.definition.code true ∉ es := by
    intro hmem
    have hcall : callFor g.definition ∈ Review.calls es := List.mem_filterMap.mpr ⟨_, hmem, rfl⟩
    rw [h.calls] at hcall
    cases hcall
  unfold groupCalls
  simp only [List.mem_append, hno, false_or]

/-- What the events of a visit tell about the visited group: the review goes on, the calls are
those that the user has consented to, and a consent for all stands from then on. -/
structure Seen (g : Group) (st : Standing) (es : List Event) (st' : Standing) : Prop where
  goesOn : breaksOff es g = false
  calls : calls es = if st.applyAll || agrees es g then groupCalls es g else []
  applyAll : st'.applyAll = (st.applyAll || agreesToAll es g)
  quit : st'.quit = st.quit

theorem Seen.of_dissent {st st' : Standing} (h : Dissent g st es st') : Seen g st es st' := by
  cases h with
  | standing hall hskip =>
    have hnone : confirmation? [] g = none := rfl
    constructor <;> simp [breaksOff, agrees, agreesToAll, hnone, hall, Review.calls]
  | @given _ all hopen prompted =>
    have hconf := prompted.confirmation?
    constructor
    · simp [breaksOff, hconf]
    · simp [agrees, hconf, hopen.1, prompted.calls]
    · cases all <;> simp [agreesToAll, hconf, Standing.after]
    · cases all <;> rfl

theorem Seen.of_applied {st st' : Standing} (h : Consent g st es st') (happlied : Applied g fs os) :
    Seen g st (es ++ fs) st' := by
  cases h with
  | standing hall =>
    have hconf := happlied.confirmation?
    constructor
    · simp [breaksOff, hconf]
    · simp [hall, happlied.calls]
    · simp [hall]
    · rfl
  | @given _ all hopen prompted =>
    have hconf : confirmation? (es ++ fs) g = some (.decided true all) := by
      rw [confirmation?_append, prompted.confirmation?, Option.some_or]
    constructor
    · simp [breaksOff, hconf]
    · rw [calls_append, prompted.calls, prompted.groupCalls_append, ← happlied.calls]
      cases all <;> simp [agrees, hconf]
    · cases all <;> simp [agreesToAll, hconf, hopen.1, Standing.after]
    · cases all <;> rfl

theorem Visit.seen {st st' : Standing} (h : Visit g st es os st') : Seen g st es st' := by
  cases h with
  | applied consent applied => exact .of_applied consent applied
  | leftOut dissent => exact .of_dissent dissent
  | ended hopen prompted =>
    have hconf := prompted.confirmation?
    constructor
    · simp [breaksOff, hconf]
    · simp [agrees, hconf, hopen.1, prompted.calls]
    · simp [agreesToAll, hconf]
    · rfl

theorem silent_append (h : Silent es p) (h' : Silent fs p) : Silent (es ++ fs) p := by
  intro e he
  rcases List.mem_append.mp he with he | he
  · exact h e he
  · exact h' e he

theorem Visit.silent {st st' : Standing} (h : Visit g st es os st') (hdef : g.definition.path ≠ q)
    (huse : ∀ u ∈ g.usages, u.path ≠ q) : Silent es q := by
  obtain ⟨asked, written, rfl, hasked, hwritten⟩ := h.parts
  apply silent_append
  · cases hasked with
    | standing => simp [Silent]
    | prompted prompted => exact prompted.silent hdef
  · intro e he
    obtain ⟨r, hr, ok, rfl⟩ := hwritten e he
    rcases hr with rfl | hr
    · simpa [Event.path?] using hdef
    · simpa [Event.path?] using huse r hr

/-! ### What a review writes -/

theorem Trace.silent {st st' : Standing} {r : Except Stop (List Outcome)} (h : Trace st gs es r st')
    (hdef : ∀ g ∈ gs, g.definition.path ≠ q) (huse : ∀ g ∈ gs, ∀ u ∈ g.usages, u.path ≠ q) :
    Silent es q := by
  induction h with
  | nil => simp [Silent]
  | closed => simp [Silent]
  | last hopen ending =>
    have hne := hdef _ List.mem_cons_self
    cases ending with
    | quit hopen prompted => exact prompted.silent hne
    | interrupted hopen prompted => exact prompted.silent hne
  | @next _ _ _ g gs _ _ _ _ hquit visit rest ih =>
    apply silent_append
    · exact visit.silent (hdef g List.mem_cons_self) (huse g List.mem_cons_self)
    · exact ih (fun k hk => hdef k (List.mem_cons_of_mem g hk))
        (fun k hk => huse k (List.mem_cons_of_mem g hk))

theorem Apart.tail (h : Apart (g :: gs)) : Apart gs :=
  ⟨(List.nodup_cons.mp h.distinct).2, fun k hk l hl =>
    h.separate k (List.mem_cons_of_mem g hk) l (List.mem_cons_of_mem g hl)⟩

theorem Apart.head_ne {k : Group} (h : Apart (g :: gs)) (hk : k ∈ gs) :
    g.definition.path ≠ k.definition.path := by
  intro heq
  apply (List.nodup_cons.mp h.distinct).1
  exact List.mem_map.mpr ⟨k, hk, heq.symm⟩

/-- Along a chain of visits exactly the calls are made that the user has consented to. -/
theorem Trace.calls {st st' : Standing} {r : Except Stop (List Outcome)} (h : Trace st gs es r st')
    (hapart : Apart gs) (hquit : st.quit = false) :
    calls es = consentedCalls es st.applyAll gs := by
  induction h with
  | nil => rfl
  | closed hclosed =>
    rw [hclosed] at hquit
    cases hquit
  | last hopen ending =>
    cases ending with
    | quit hopen prompted =>
      simp [consentedCalls, breaksOff, prompted.confirmation?, prompted.calls]
    | interrupted hopen prompted =>
      simp [consentedCalls, breaksOff, prompted.confirmation?, prompted.calls]
  | @next _ _ _ g gs es fs _ _ hopen visit rest ih =>
    have hseen := visit.seen
    -- what is told about the visited group stands in its own events alone
    have hhere : SameAbout (es ++ fs) es g := by
      apply sameAbout_append_left
      apply rest.silent
      · intro k hk
        exact (hapart.head_ne hk).symm
      · intro k hk
        exact hapart.separate g List.mem_cons_self k (List.mem_cons_of_mem g hk)
    have hthere : ∀ k ∈ gs, SameAbout (es ++ fs) fs k := by
      intro k hk
      apply sameAbout_append_right
      apply visit.silent (hapart.head_ne hk)
      exact hapart.separate k (List.mem_cons_of_mem g hk) g List.mem_cons_self
    have hrest := ih hapart.tail (hseen.quit.trans hquit)
    have hgoesOn := hseen.goesOn
    have hcalls := hseen.calls
    rw [hseen.applyAll] at hrest
    unfold breaksOff at hgoesOn
    unfold agrees at hcalls
    unfold agreesToAll at hrest
    unfold consentedCalls breaksOff agrees agreesToAll
    rw [calls_append, consentedCalls_congr hthere, hhere.groupCalls, hhere.confirmation,
      if_neg (by simp [hgoesOn]), hcalls, hrest]

theorem mem_consentedCalls {all : Bool} {call : Path × Option String}
    (h : call ∈ consentedCalls es all gs) :
    ∃ g ∈ gs, ∃ r, (r = g.definition ∨ r ∈ g.usages) ∧ call = callFor r := by
  induction gs generalizing all with
  | nil => cases h
  | cons g gs ih =>
    unfold consentedCalls at h
    split at h
    · cases h
    · rcases List.mem_append.mp h with hhere | hlater
      · refine ⟨g, List.mem_cons_self, ?_⟩
        split at hhere
        · rcases List.mem_cons.mp hhere with rfl | hfollows
          · exact ⟨g.definition, .inl rfl, rfl⟩
          · split at hfollows
            · obtain ⟨u, hu, rfl⟩ := List.mem_map.mp hfollows
              exact ⟨u, .inr hu, rfl⟩
            · cases hfollows
        · cases hhere
      · obtain ⟨k, hk, hr⟩ := ih hlater
        exact ⟨k, List.mem_cons_of_mem g hk, hr⟩

/-- The calls of a whole review are exactly those that the user has consented to; each of them
passes the text of its own result, and there is none for a file that failed or does not change. -/
theorem reviewWith_calls_consented (settings : Settings) (write : Output.Writer)
    (rs : List FileResult) (desk : Desk) (hdistinct : (rs.map (·.path)).Nodup) :
    ∃ es, (perform (reviewWith settings write rs) ⟨.start, desk⟩).2.desk.log = desk.log ++ es ∧
      calls es = consentedCalls es false (groups (changed rs)) ∧
      (∀ call ∈ calls es, ∃ r ∈ rs, r.success = true ∧ r.hasChanges = true ∧ call = callFor r) ∧
      ∀ r ∈ rs, r.success = false ∨ r.hasChanges = false → ∀ code, (r.path, code) ∉ calls es := by
  obtain ⟨_, r, s', hrun, ⟨es, hlog, rfl⟩, htrace⟩ :=
    perform_reviewWith settings write rs ⟨.start, desk⟩
  have hapart : Apart (groups (changed rs)) :=
    apart_groups ((List.filter_sublist.map _).nodup hdistinct)
  have hcalls : calls es = consentedCalls es false (groups (changed rs)) := by
    have hdeeds := htrace.calls hapart rfl
    rw [calls_deeds, consentedCalls_congr fun g _ => sameAbout_deeds es g] at hdeeds
    exact hdeeds
  have hsource : ∀ call ∈ calls es,
      ∃ r ∈ rs, r.success = true ∧ r.hasChanges = true ∧ call = callFor r := by
    intro call hcall
    rw [hcalls] at hcall
    obtain ⟨g, hg, r, hr, rfl⟩ := mem_consentedCalls hcall
    have hmem := List.mem_filter.mp (mem_of_mem_groups hg hr)
    have hboth := Bool.and_eq_true_iff.mp hmem.2
    exact ⟨r, hmem.1, hboth.1, hboth.2, rfl⟩
  refine ⟨es, ?_, hcalls, hsource, ?_⟩
  · rw [hrun]
    exact hlog
  · intro r hr hunfit code hcall
    obtain ⟨r', hr', hsuccess, hchanges, heq⟩ := hsource _ hcall
    have hpath : r.path = r'.path := congrArg Prod.fst heq
    have hsame : r = r' := List.inj_on_of_nodup_map hdistinct hr hr' hpath
    rw [hsame, hsuccess, hchanges] at hunfit
    simp at hunfit

/-- A file with a new name, a file that uses it, and a file that failed. -/
def sampleResults : List FileResult :=
  [⟨⟨"", ["names.py"]⟩, true, "def oldName(): pass", some "def old_name(): pass",
      ["Renamed function 'oldName' to 'old_name'"], none⟩,
    ⟨⟨"", ["uses.py"]⟩, true, "oldName()", some "old_name()",
      ["Renamed symbol 'oldName' to 'old_name' (cross-file)"], none⟩,
    .failed ⟨"", ["broken.py"]⟩ "Syntax error"]

def consoleDesk (disk : Disk) (input : List String) : Desk :=
  ⟨disk, input.map some, none, [], false, .standard, []⟩

/-- Writing that always goes well and leaves the disk alone. -/
def dryWrite : Output.Writer := fun disk path _ => ⟨disk, .ok path⟩

def sampleReview : Except Stop (List Outcome) × State :=
  perform (reviewWith .usual dryWrite sampleResults)
    ⟨.start, consoleDesk ⟨.dir .directory [], false, none⟩ ["perhaps", "y"]⟩

theorem reviewWith_calls_consented_sample :
    (sampleResults.map (·.path)).Nodup ∧
      calls sampleReview.2.desk.log =
        [(⟨"", ["names.py"]⟩, some "def old_name(): pass"),
          (⟨"", ["uses.py"]⟩, some "old_name()")] ∧
      ∃ es, sampleReview.2.desk.log = [] ++ es ∧
        calls es = consentedCalls es false (groups (changed sampleResults)) ∧
        (∀ call ∈ calls es, ∃ r ∈ sampleResults,
          r.success = true ∧ r.hasChanges = true ∧ call = callFor r) ∧
        ∀ r ∈ sampleResults, r.success = false ∨ r.hasChanges = false →
          ∀ code, (r.path, code) ∉ calls es :=
  have hdistinct : (sampleResults.map (·.path)).Nodup := by decide
  ⟨hdistinct, by decide +kernel,
    reviewWith_calls_consented .usual dryWrite sampleResults (consoleDesk _ _) hdistinct⟩

end Restyle.Review

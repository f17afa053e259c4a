import Restyle.Review.Process

/-!
The course of a review. What happens at one group is a relation between the standing decisions
before and after it, the events and the outcomes; a whole review is a chain of such visits. The
main statement is that every review runs along such a chain, whatever the user does and however
the writing goes.
-/

namespace Restyle.Review

open Disk (Path)

variable {es : List Event} {os : List Outcome} {g : Group}

/-! ### Running actions -/

section Perform

variable {α β : Type}

@[simp] theorem perform_pure (a : α) (s : State) :
    perform (pure a : ReviewM α) s = (.ok a, s) := rfl

@[simp] theorem perform_get (s : State) : perform (get : ReviewM State) s = (.ok s, s) := rfl

@[simp] theorem perform_modify (f : State → State) (s : State) :
    perform (modify f : ReviewM Unit) s = (.ok (), f s) := rfl

theorem perform_bind (x : ReviewM α) (f : α → ReviewM β) (s : State) :
    perform (x >>= f) s =
      match perform x s with
      | (.ok a, s') => perform (f a) s'
      | (.error e, s') => (.error e, s') := by
  unfold perform
  rw [ExceptT.run_bind, StateT.run_bind]
  change (match StateT.run (ExceptT.run x) s with | (r, t) => _) = _
  rcases StateT.run (ExceptT.run x) s with ⟨_ | a, s'⟩ <;> rfl

theorem perform_tryCatch (x : ReviewM α) (h : Stop → ReviewM α) (s : State) :
    perform (tryCatch x h) s =
      match perform x s with
      | (.ok a, s') => (.ok a, s')
      | (.error e, s') => perform (h e) s' := by
  unfold perform
  rw [ExceptT.run_tryCatch, StateT.run_bind]
  change (match StateT.run (ExceptT.run x) s with | (r, t) => _) = _
  rcases StateT.run (ExceptT.run x) s with ⟨_ | a, s'⟩ <;> rfl

theorem perform_bind_ok {x : ReviewM α} {f : α → ReviewM β} {a : α} {s s' : State}
    (h : perform x s = (.ok a, s')) : perform (x >>= f) s = perform (f a) s' := by
  rw [perform_bind, h]

theorem perform_bind_error {x : ReviewM α} {f : α → ReviewM β} {e : Stop} {s s' : State}
    (h : perform x s = (.error e, s')) : perform (x >>= f) s = (.error e, s') := by
  rw [perform_bind, h]

@[simp] theorem perform_get_bind (f : State → ReviewM β) (s : State) :
    perform (get >>= f) s = perform (f s) s := perform_bind_ok (perform_get s)

@[simp] theorem perform_modify_bind (g : State → State) (f : Unit → ReviewM β) (s : State) :
    perform (modify g >>= f) s = perform (f ()) (g s) := perform_bind_ok (perform_modify g s)

end Perform

/-! ### Events -/

def Event.isLine : Event → Bool
  | .line _ => true
  | _ => false

/-- The events that are more than lines on the console. -/
def deeds (es : List Event) : List Event := es.filter (!·.isLine)

@[simp] theorem deeds_append (es fs : List Event) : deeds (es ++ fs) = deeds es ++ deeds fs :=
  List.filter_append es fs

@[simp] theorem deeds_lines (lines : List String) : deeds (lines.map .line) = [] := by
  simp [deeds, Event.isLine]

/-- The state `s'` comes after `s`, with these deeds between the two. -/
def Later (s : State) (es : List Event) (s' : State) : Prop :=
  ∃ log, s'.desk.log = s.desk.log ++ log ∧ deeds log = es

theorem Later.refl (s : State) : Later s [] s := ⟨[], by simp, rfl⟩

theorem Later.trans {s s' s'' : State} {fs : List Event} (h : Later s es s')
    (h' : Later s' fs s'') : Later s (es ++ fs) s'' := by
  obtain ⟨log, hlog, hes⟩ := h
  obtain ⟨log', hlog', hfs⟩ := h'
  refine ⟨log ++ log', ?_, ?_⟩
  · rw [hlog', hlog, List.append_assoc]
  · rw [deeds_append, hes, hfs]

def State.tell (s : State) (lines : List String) : State := { s with desk := s.desk.say lines }

@[simp] theorem State.tell_standing (s : State) (lines : List String) :
    (s.tell lines).standing = s.standing := rfl

theorem State.tell_tell (s : State) (lines more : List String) :
    (s.tell lines).tell more = s.tell (lines ++ more) := by
  simp [State.tell]

theorem later_tell (s : State) (lines : List String) : Later s [] (s.tell lines) :=
  ⟨lines.map .line, rfl, deeds_lines lines⟩

theorem Later.of_tell {s s' : State} {lines : List String} (h : Later (s.tell lines) es s') :
    Later s es s' := (later_tell s lines).trans h

@[simp] theorem perform_say_bind {β : Type} (lines : List String) (f : Unit → ReviewM β)
    (s : State) : perform (say lines >>= f) s = perform (f ()) (s.tell lines) :=
  perform_bind_ok rfl

/-! ### Confirmations -/

/-- How asking about a file ends. -/
inductive Confirmation where
  | decided (apply all : Bool)
  | quit
  | interrupted
  | ended
deriving DecidableEq, Repr

namespace Confirmation

def ofAnswer : Except Stop Verdict → Confirmation
  | .ok .yes => decided true false
  | .ok .no => decided false false
  | .ok .quit => quit
  | .error .interrupt => interrupted
  | .error .endOfInput => ended

def result : Confirmation → Except Stop Verdict
  | decided true _ => .ok .yes
  | decided false _ => .ok .no
  | quit => .ok .quit
  | interrupted => .error .interrupt
  | ended => .error .endOfInput

@[simp] theorem result_ofAnswer (a : Except Stop Verdict) : (ofAnswer a).result = a := by
  rcases a with (_ | _) | (_ | _ | _) <;> rfl

end Confirmation

/-- What stands for all files after a decision about one of them. -/
def Standing.after (st : Standing) (apply all : Bool) : Standing :=
  if all && apply then { st with applyAll := true }
  else if all then { st with skipAll := true }
  else st

def Confirmation.standing (st : Standing) : Confirmation → Standing
  | decided apply all => st.after apply all
  | _ => st

@[simp] theorem Confirmation.standing_ofAnswer (st : Standing) (a : Except Stop Verdict) :
    (ofAnswer a).standing st = st := by
  rcases a with (_ | _) | (_ | _ | _) <;> rfl

/-- What is seen of the confirmation of the file at a path. If the display is lost the console
is asked instead. -/
inductive Prompted (p : Path) : List Event → Confirmation → Prop
  | window (choice : Choice) (all : Bool) :
      Prompted p [.chosen p choice all] (.decided (choice = .apply) all)
  | interrupted : Prompted p [.brokenOff p .interrupt] .interrupted
  | console (n : Nat) (a : Except Stop Verdict) :
      Prompted p (List.replicate n .question ++ [.ofAnswer p a]) (.ofAnswer a)
  | fallback (n : Nat) (a : Except Stop Verdict) :
      Prompted p (.brokenOff p .displayLost :: (List.replicate n .question ++ [.ofAnswer p a]))
        (.ofAnswer a)

theorem deeds_readVerdict (input : List (Option String)) :
    ∃ n, deeds (readVerdict input).2.2 = List.replicate n .question := by
  induction input with
  | nil => exact ⟨1, rfl⟩
  | cons line rest ih =>
    cases line with
    | none => exact ⟨1, rfl⟩
    | some text =>
      cases hv : verdict? text with
      | some v =>
        refine ⟨1, ?_⟩
        simp [readVerdict, hv, deeds, Event.isLine]
      | none =>
        obtain ⟨n, hn⟩ := ih
        refine ⟨n + 1, ?_⟩
        rw [List.replicate_succ, ← hn]
        simp [readVerdict, hv, deeds, Event.isLine]

theorem deeds_ofAnswer (p : Path) (a : Except Stop Verdict) :
    deeds [.ofAnswer p a] = [.ofAnswer p a] := by
  cases a <;> rfl

theorem perform_askOnConsole (p : Path) (changes : List String) (s : State) :
    ∃ n a s', perform (askOnConsole p changes) s = (a, s') ∧
      Later s (List.replicate n .question ++ [.ofAnswer p a]) s' ∧ s'.standing = s.standing := by
  unfold askOnConsole
  rw [perform_say_bind, perform_get_bind]
  generalize ["", s!"📄 Apply changes to {p}?"] ++ changes.map (fun c => s!"  {c}") = lines
  obtain ⟨n, hn⟩ := deeds_readVerdict (s.tell lines).desk.input
  rcases hr : readVerdict (s.tell lines).desk.input with ⟨a, input, es⟩
  rw [hr] at hn
  dsimp only at hn ⊢
  rw [perform_modify_bind, hr]
  have hdeeds : deeds (es ++ [.ofAnswer p a]) =
      List.replicate n .question ++ [.ofAnswer p a] := by
    rw [deeds_append, hn, deeds_ofAnswer]
  cases a with
  | ok v => exact ⟨n, _, _, rfl, Later.of_tell ⟨_, rfl, hdeeds⟩, rfl⟩
  | error e => exact ⟨n, _, _, rfl, Later.of_tell ⟨_, rfl, hdeeds⟩, rfl⟩

theorem perform_askInWindow (e : Exhibit) (s : State) :
    ∃ r s', perform (askInWindow e) s = (r, s') ∧ s'.standing = s.standing ∧
      ((∃ c all, r = .ok (some ⟨c = .apply, all⟩) ∧ Later s [.chosen e.path c all] s') ∨
        (r = .ok none ∧ Later s [.brokenOff e.path .displayLost] s') ∨
        (r = .error .interrupt ∧ Later s [.brokenOff e.path .interrupt] s')) := by
  unfold askInWindow
  rw [perform_get_bind]
  dsimp only
  rw [perform_modify_bind]
  generalize showChange s.desk.sizes s.desk.window s.desk.actions e = shown
  rcases shown with ⟨choice, all, window, actions, told, calls⟩
  have hlater (event : Event) (desk : Desk) (hlog : desk.log = s.desk.log)
      (hdeed : deeds [event] = [event]) :
      Later s [event] { s with desk := (desk.say told).add [event] } := by
    refine ⟨told.map .line ++ [event], ?_, ?_⟩
    · rw [← hlog, ← List.append_assoc]
      rfl
    · rw [deeds_append, deeds_lines, hdeed]
      rfl
  rcases choice with (_ | _) | c
  · exact ⟨_, _, rfl, rfl, .inr (.inl ⟨rfl, hlater _ _ rfl rfl⟩)⟩
  · exact ⟨_, _, rfl, rfl, .inr (.inr ⟨rfl, hlater _ _ rfl rfl⟩)⟩
  · exact ⟨_, _, rfl, rfl, .inl ⟨c, all, rfl, hlater _ _ rfl rfl⟩⟩

theorem perform_remember (a : Answer) (s : State) :
    ∃ s', perform (remember a) s = (.ok (), s') ∧ Later s [] s' ∧
      s'.standing = s.standing.after a.apply a.all := by
  rcases a with ⟨_ | _, _ | _⟩
  · exact ⟨s, rfl, Later.refl s, rfl⟩
  · exact ⟨_, rfl, ⟨_, rfl, rfl⟩, rfl⟩
  · exact ⟨s, rfl, Later.refl s, rfl⟩
  · exact ⟨_, rfl, ⟨_, rfl, rfl⟩, rfl⟩

/-- Asking about a group is a confirmation of its file, which may change what stands for all. -/
theorem perform_ask (settings : Settings) (g : Group) (s : State) :
    ∃ es c s', perform (ask settings g) s = (c.result, s') ∧ Later s es s' ∧
      Prompted g.definition.path es c ∧ s'.standing = c.standing s.standing := by
  unfold ask
  dsimp only
  rw [perform_say_bind, perform_get_bind]
  generalize [s!"🎨 Showing GUI for definition file: {g.definition.path.name}"] = lines
  split
  case isTrue =>
    obtain ⟨r, t, hask, hst, hr⟩ := perform_askInWindow ⟨g.definition.path, g.definition.source,
      g.definition.code.getD "", g.announcement⟩ (s.tell lines)
    rcases hr with ⟨c, all, rfl, hlater⟩ | ⟨rfl, hlater⟩ | ⟨rfl, hlater⟩
    · obtain ⟨t', hrem, hlater', hst'⟩ := perform_remember ⟨c = .apply, all⟩ t
      refine ⟨_, _, t', ?_, (hlater.of_tell.trans hlater'), .window c all, ?_⟩
      · rw [perform_bind_ok hask]
        dsimp only
        rw [perform_bind_ok hrem]
        cases c <;> rfl
      · rw [hst', hst]
        rfl
    · -- the display is lost, and the console is asked instead
      obtain ⟨n, a, t', hcons, hlater', hst'⟩ := perform_askOnConsole g.definition.path
        g.announcement (t.tell [s!"❌ GUI error: {breakdownMessage .displayLost}"])
      refine ⟨_, _, t', ?_, (hlater.of_tell.trans hlater'.of_tell), .fallback n a, ?_⟩
      · rw [perform_bind_ok hask]
        dsimp only
        rw [perform_say_bind, hcons, Confirmation.result_ofAnswer]
      · rw [hst', Confirmation.standing_ofAnswer]
        exact hst
    · refine ⟨_, _, t, ?_, hlater.of_tell, .interrupted, hst⟩
      exact perform_bind_error hask
  case isFalse =>
    obtain ⟨n, a, t, hcons, hlater, hst⟩ :=
      perform_askOnConsole g.definition.path g.announcement (s.tell lines)
    refine ⟨_, _, t, ?_, hlater.of_tell, .console n a, ?_⟩
    · rw [hcons, Confirmation.result_ofAnswer]
    · rw [hst, Confirmation.standing_ofAnswer]
      rfl

/-! ### Writing -/

theorem perform_writeResult (write : Output.Writer) (r : FileResult) (isDefinition : Bool)
    (lines : List String) (s : State) :
    ∃ w s', perform (say lines >>= fun _ => writeResult write r isDefinition) s =
        (.ok (.written r.path w isDefinition), s') ∧
      Later s [.write r.path r.code w.outcome.isOk] s' ∧ s'.standing = s.standing := by
  rw [perform_say_bind]
  exact ⟨_, _, rfl, @Later.of_tell _ s _ lines ⟨_, rfl, rfl⟩, rfl⟩

theorem perform_applyDefinition (write : Output.Writer) (r : FileResult) (s : State) :
    ∃ w s', perform (applyDefinition write r) s = (.ok (.written r.path w true), s') ∧
      Later s [.write r.path r.code w.outcome.isOk] s' ∧ s'.standing = s.standing :=
  perform_writeResult write r true _ s

theorem perform_applyUsage (write : Output.Writer) (r : FileResult) (s : State) :
    ∃ w s', perform (applyUsage write r) s = (.ok (.written r.path w false), s') ∧
      Later s [.write r.path r.code w.outcome.isOk] s' ∧ s'.standing = s.standing :=
  perform_writeResult write r false _ s

/-- Files that follow a decision are written one after the other. -/
inductive Followed : List FileResult → List Event → List Outcome → Prop
  | nil : Followed [] [] []
  | cons {r : FileResult} {rs : List FileResult} {es : List Event} {os : List Outcome}
      (w : Output.WriteResult) (rest : Followed rs es os) :
      Followed (r :: rs) (.write r.path r.code w.outcome.isOk :: es) (.written r.path w false :: os)

theorem perform_mapM_applyUsage (write : Output.Writer) (rs : List FileResult) (s : State) :
    ∃ es os s', perform (rs.mapM (applyUsage write)) s = (.ok os, s') ∧ Later s es s' ∧
      Followed rs es os ∧ s'.standing = s.standing := by
  induction rs generalizing s with
  | nil => exact ⟨[], [], s, rfl, Later.refl s, .nil, rfl⟩
  | cons r rs ih =>
    obtain ⟨w, t, hw, hlater, hst⟩ := perform_applyUsage write r s
    obtain ⟨es, os, t', hrs, hlater', hfollowed, hst'⟩ := ih t
    refine ⟨_, _, t', ?_, hlater.trans hlater', .cons w hfollowed, hst'.trans hst⟩
    rw [List.mapM_cons, perform_bind_ok hw, perform_bind_ok hrs]
    rfl

/-- The file of a group is written, and the others follow if that went well. -/
inductive Applied (g : Group) : List Event → List Outcome → Prop
  | failed (w : Output.WriteResult) (h : w.outcome.isOk = false) :
      Applied g [.write g.definition.path g.definition.code false]
        [.written g.definition.path w true]
  | done (w : Output.WriteResult) (h : w.outcome.isOk = true) {es : List Event}
      {os : List Outcome} (rest : Followed g.usages es os) :
      Applied g (.write g.definition.path g.definition.code true :: es)
        (.written g.definition.path w true :: os)

theorem Followed.writes {rs : List FileResult} (h : Followed rs es os) :
    ∀ e ∈ es, ∃ r ∈ rs, ∃ ok, e = .write r.path r.code ok := by
  induction h with
  | nil => simp
  | @cons r rs es os w rest ih =>
    intro e he
    rcases List.mem_cons.mp he with rfl | he
    · exact ⟨r, List.mem_cons_self, _, rfl⟩
    · obtain ⟨r', hr', hwrite⟩ := ih e he
      exact ⟨r', List.mem_cons_of_mem r hr', hwrite⟩

theorem Applied.writes (h : Applied g es os) :
    ∀ e ∈ es, ∃ r, (r = g.definition ∨ r ∈ g.usages) ∧ ∃ ok, e = .write r.path r.code ok := by
  intro e he
  cases h with
  | failed w hw => exact ⟨g.definition, .inl rfl, false, List.mem_singleton.mp he⟩
  | done w hw rest =>
    rcases List.mem_cons.mp he with rfl | he
    · exact ⟨g.definition, .inl rfl, true, rfl⟩
    · obtain ⟨r, hr, hwrite⟩ := rest.writes e he
      exact ⟨r, .inr hr, hwrite⟩

/-! ### Visits -/

def Standing.Open (st : Standing) : Prop := st.applyAll = false ∧ st.skipAll = false

/-- The changes of a group are wanted, from before or by a decision about this group. -/
inductive Consent (g : Group) (st : Standing) : List Event → Standing → Prop
  | standing (h : st.applyAll = true) : Consent g st [] st
  | given {es : List Event} {all : Bool} (h : st.Open)
      (prompted : Prompted g.definition.path es (.decided true all)) :
      Consent g st es (st.after true all)

/-- The changes of a group are not wanted, from before or by a decision about this group. -/
inductive Dissent (g : Group) (st : Standing) : List Event → Standing → Prop
  | standing (h : st.applyAll = false) (h' : st.skipAll = true) : Dissent g st [] st
  | given {es : List Event} {all : Bool} (h : st.Open)
      (prompted : Prompted g.definition.path es (.decided false all)) :
      Dissent g st es (st.after false all)

/-- What the file of a group comes to. -/
inductive Judgement (g : Group) (st : Standing) :
    List Event → Except Stop Outcome → Standing → Prop
  | applied {es : List Event} {st' : Standing} (consent : Consent g st es st')
      (w : Output.WriteResult) :
      Judgement g st
        (es ++ [.write g.definition.path g.definition.code w.outcome.isOk])
        (.ok (.written g.definition.path w true)) st'
  | leftOut {es : List Event} {st' : Standing} (dissent : Dissent g st es st') :
      Judgement g st es (.ok (.leftOut g.definition.path)) st'
  | ended {es : List Event} (h : st.Open) (prompted : Prompted g.definition.path es .ended) :
      Judgement g st es (.ok (.stopped g.definition.path .endOfInput)) st
  | quit {es : List Event} (h : st.Open) (prompted : Prompted g.definition.path es .quit) :
      Judgement g st es (.ok (.quit g.definition.path)) { st with quit := true }
  | interrupted {es : List Event} (h : st.Open)
      (prompted : Prompted g.definition.path es .interrupted) :
      Judgement g st es (.error .interrupt) st

theorem perform_reviewDefinition (settings : Settings) (write : Output.Writer) (g : Group)
    (s : State) :
    ∃ es r s', perform (reviewDefinition settings write g) s = (r, s') ∧ Later s es s' ∧
      Judgement g s.standing es r s'.standing := by
  unfold reviewDefinition
  rw [perform_tryCatch]
  unfold decideDefinition
  dsimp only
  rw [perform_get_bind]
  cases hall : s.standing.applyAll with
  | true =>
    rw [if_pos rfl, perform_say_bind]
    generalize [s!"✅ Auto-applying to {g.definition.path.name} (apply to all definitions)"]
      = lines
    obtain ⟨w, t, hw, hlater, hst⟩ := perform_applyDefinition write g.definition (s.tell lines)
    rw [hw]
    refine ⟨_, _, t, rfl, hlater.of_tell, ?_⟩
    rw [hst]
    exact .applied (.standing hall) w
  | false =>
    rw [if_neg (by simp)]
    cases hskip : s.standing.skipAll with
    | true =>
      rw [if_pos rfl, perform_say_bind]
      exact ⟨_, _, _, rfl, later_tell s _, .leftOut (.standing hall hskip)⟩
    | false =>
      rw [if_neg (by simp)]
      obtain ⟨es, c, t, hask, hlater, hprompted, hst⟩ := perform_ask settings g s
      have hopen : s.standing.Open := ⟨hall, hskip⟩
      -- only here the user is asked, and the confirmation can end in five ways
      match c with
      | .decided true all =>
        obtain ⟨w, t', hw, hlater', hst'⟩ := perform_applyDefinition write g.definition t
        rw [perform_bind_ok hask]
        dsimp only
        rw [hw]
        refine ⟨_, _, t', rfl, hlater.trans hlater', ?_⟩
        rw [hst', hst]
        exact .applied (.given hopen hprompted) w
      | .decided false all =>
        rw [perform_bind_ok hask]
        dsimp only
        rw [perform_say_bind]
        refine ⟨_, _, _, rfl, hlater.trans (later_tell t _), ?_⟩
        rw [List.append_nil, State.tell_standing, hst]
        exact .leftOut (.given hopen hprompted)
      | .quit =>
        rw [perform_bind_ok hask]
        refine ⟨es, _, _, rfl, hlater, ?_⟩
        change Judgement g s.standing es _ { t.standing with quit := true }
        rw [hst]
        exact .quit hopen hprompted
      | .interrupted =>
        rw [perform_bind_error hask]
        refine ⟨es, _, t, rfl, hlater, ?_⟩
        rw [hst]
        exact .interrupted hopen hprompted
      | .ended =>
        rw [perform_bind_error hask]
        refine ⟨es, _, t, rfl, hlater, ?_⟩
        rw [hst]
        exact .ended hopen hprompted

/-- What happens at a group after which the review goes on. -/
inductive Visit (g : Group) (st : Standing) : List Event → List Outcome → Standing → Prop
  | applied {es fs : List Event} {os : List Outcome} {st' : Standing}
      (consent : Consent g st es st') (applied : Applied g fs os) : Visit g st (es ++ fs) os st'
  | leftOut {es : List Event} {st' : Standing} (dissent : Dissent g st es st') :
      Visit g st es [.leftOut g.definition.path] st'
  | ended {es : List Event} (h : st.Open) (prompted : Prompted g.definition.path es .ended) :
      Visit g st es [.stopped g.definition.path .endOfInput] st

/-- The events before the files of a group are written or left out: none, or those of a
confirmation that does not end with a quit. -/
inductive Asked (g : Group) : List Event → Prop
  | standing : Asked g []
  | prompted {es : List Event} {c : Confirmation} (h : Prompted g.definition.path es c)
      (hc : c ≠ .quit) : Asked g es

/-- A visit asks, if at all, and then writes, if at all. -/
theorem Visit.parts {st st' : Standing} (h : Visit g st es os st') :
    ∃ asked written, es = asked ++ written ∧ Asked g asked ∧
      ∀ e ∈ written, ∃ r, (r = g.definition ∨ r ∈ g.usages) ∧
        ∃ ok, e = .write r.path r.code ok := by
  cases h with
  | @applied es fs os st' consent applied =>
    refine ⟨es, fs, rfl, ?_, applied.writes⟩
    cases consent with
    | standing => exact .standing
    | given hopen prompted => exact .prompted prompted nofun
  | leftOut dissent =>
    refine ⟨es, [], (List.append_nil es).symm, ?_, nofun⟩
    cases dissent with
    | standing => exact .standing
    | given hopen prompted => exact .prompted prompted nofun
  | ended hopen prompted =>
    exact ⟨es, [], (List.append_nil es).symm, .prompted prompted nofun, nofun⟩

/-- What happens at a group that is the last one to be visited. -/
inductive Ending (g : Group) (st : Standing) :
    List Event → Except Stop (List Outcome) → Standing → Prop
  | quit {es : List Event} (h : st.Open) (prompted : Prompted g.definition.path es .quit) :
      Ending g st es (.ok [.quit g.definition.path]) { st with quit := true }
  | interrupted {es : List Event} (h : st.Open)
      (prompted : Prompted g.definition.path es .interrupted) :
      Ending g st es (.error .interrupt) st

/-- The visits of groups one after the other. -/
inductive Trace :
    Standing → List Group → List Event → Except Stop (List Outcome) → Standing → Prop
  | nil (st : Standing) : Trace st [] [] (.ok []) st
  | closed {st : Standing} {g : Group} {gs : List Group} (h : st.quit = true) :
      Trace st (g :: gs) [] (.ok []) st
  | last {st st' : Standing} {g : Group} {gs : List Group} {es : List Event}
      {r : Except Stop (List Outcome)} (h : st.quit = false) (ending : Ending g st es r st') :
      Trace st (g :: gs) es r st'
  | next {st st' st'' : Standing} {g : Group} {gs : List Group} {es fs : List Event}
      {os : List Outcome} {r : Except Stop (List Outcome)} (h : st.quit = false)
      (visit : Visit g st es os st') (rest : Trace st' gs fs r st'') :
      Trace st (g :: gs) (es ++ fs) (r.map (os ++ ·)) st''

/-! ### Outcomes -/

theorem append_ne_quitError (start rest : String) (h : 2 ≤ start.toList.length)
    (h' : start.toList.take 2 ≠ ['U', 'S']) : start ++ rest ≠ quitError := by
  intro heq
  have htake := congrArg (fun t => t.toList.take 2) heq
  rw [String.toList_append, List.take_append_of_le_length h] at htake
  exact h' htake

theorem refusal_message (r : Disk.Refusal) : ∃ rest, r.message = "[Errno " ++ rest := by
  unfold Disk.Refusal.message
  simp only [String.append_assoc]
  exact ⟨_, rfl⟩

/-- No complaint about writing reads like the mark of a user who quits: they begin otherwise. -/
theorem message_ne_quitError (f : Output.WriteFault) : f.message ≠ quitError := by
  cases f with
  | refused r =>
    obtain ⟨rest, hrest⟩ := refusal_message r
    change r.message ≠ quitError
    rw [hrest]
    exact append_ne_quitError "[Errno " rest (by decide) (by decide)
  | noText => decide
  | nullCharacter => decide
  | noName path =>
    unfold Output.WriteFault.message
    dsimp only
    rw [String.append_assoc]
    exact append_ne_quitError "PosixPath(" _ (by decide) (by decide)
  | unknownMode name =>
    exact append_ne_quitError "Unknown output mode: " _ (by decide) (by decide)

theorem isQuit_written (p : Path) (w : Output.WriteResult) (isDefinition : Bool) :
    (Outcome.written p w isDefinition).isQuit = false := by
  rcases w with ⟨disk, f | target⟩
  · simp [Outcome.written, Outcome.isQuit, message_ne_quitError]
  · rfl

theorem success_written (p : Path) (w : Output.WriteResult) (isDefinition : Bool) :
    (Outcome.written p w isDefinition).success = w.outcome.isOk ∧
      (Outcome.written p w isDefinition).skipped = false := by
  rcases w with ⟨disk, f | target⟩ <;> exact ⟨rfl, rfl⟩

/-! ### Reviews -/

theorem perform_applyUsages_of_not (write : Output.Writer) (g : Group) {o : Outcome}
    (h : (o.success && !o.skipped) = false) (s : State) :
    perform (applyUsages write g o) s = (.ok [], s) := by
  unfold applyUsages
  rw [h]
  rfl

/-- A file that was written is followed by the others of its group. -/
theorem perform_applyUsages (write : Output.Writer) (g : Group) (w : Output.WriteResult)
    (s : State) :
    ∃ es os s', perform (applyUsages write g (.written g.definition.path w true)) s =
        (.ok os, s') ∧ Later s es s' ∧ s'.standing = s.standing ∧
      Applied g (.write g.definition.path g.definition.code w.outcome.isOk :: es)
        (.written g.definition.path w true :: os) := by
  have hsuccess := success_written g.definition.path w true
  cases hok : w.outcome.isOk with
  | false =>
    refine ⟨[], [], s, ?_, Later.refl s, rfl, .failed w hok⟩
    apply perform_applyUsages_of_not
    rw [hsuccess.1, hok]
    rfl
  | true =>
    obtain ⟨es, os, t, hmap, hlater, hfollowed, hst⟩ := perform_mapM_applyUsage write g.usages s
    refine ⟨es, os, t, ?_, hlater, hst, .done w hok hfollowed⟩
    unfold applyUsages
    rw [hsuccess.1, hsuccess.2, hok]
    exact hmap

/-- A review goes on after a file at which the user does not quit. -/
theorem perform_reviewGroups_next {settings : Settings} {write : Output.Writer} {gs : List Group}
    {o : Outcome} {r : Except Stop (List Outcome)} {s t u v : State}
    (hquit : s.standing.quit = false)
    (hdef : perform (reviewDefinition settings write g) s = (.ok o, t)) (hgoes : o.isQuit = false)
    (hfollow : perform (applyUsages write g o) t = (.ok os, u))
    (hrest : perform (reviewGroups settings write gs) u = (r, v)) :
    perform (reviewGroups settings write (g :: gs)) s = (r.map (o :: os ++ ·), v) := by
  unfold reviewGroups
  rw [perform_get_bind, hquit, if_neg (by simp), perform_bind_ok hdef, if_neg (by simp [hgoes]),
    perform_bind_ok hfollow]
  cases r with
  | ok outcomes =>
    rw [perform_bind_ok hrest]
    rfl
  | error e =>
    rw [perform_bind_error hrest]
    rfl

/-- Every review of groups runs along a chain of visits. -/
theorem perform_reviewGroups (settings : Settings) (write : Output.Writer) (gs : List Group)
    (s : State) :
    ∃ es r s', perform (reviewGroups settings write gs) s = (r, s') ∧ Later s es s' ∧
      Trace s.standing gs es r s'.standing := by
  induction gs generalizing s with
  | nil => exact ⟨[], _, s, rfl, Later.refl s, .nil _⟩
  | cons g gs ih =>
    cases hquit : s.standing.quit with
    | true =>
      refine ⟨[], .ok [], s, ?_, Later.refl s, .closed hquit⟩
      unfold reviewGroups
      rw [perform_get_bind, hquit]
      rfl
    | false =>
      obtain ⟨es, r, t, hdef, hlater, hjudged⟩ := perform_reviewDefinition settings write g s
      generalize hst : t.standing = st at hjudged
      -- after a quit or an interrupt no further group is visited
      cases hjudged with
      | applied consent w =>
        obtain ⟨fs, os, u, hfollow, hlater', hst', happlied⟩ :=
          perform_applyUsages write g w t
        obtain ⟨es', r', v, hrest, hlater'', htrace⟩ := ih u
        refine ⟨_, _, v, perform_reviewGroups_next hquit hdef (isQuit_written _ w true)
          hfollow hrest, (hlater.trans hlater').trans hlater'', .next hquit ?_ htrace⟩
        rw [List.append_assoc, hst', hst]
        exact .applied consent happlied
      | leftOut dissent =>
        obtain ⟨es', r', v, hrest, hlater', htrace⟩ := ih t
        refine ⟨_, _, v, perform_reviewGroups_next hquit hdef rfl
          (perform_applyUsages_of_not write g rfl t) hrest, hlater.trans hlater',
          .next hquit ?_ htrace⟩
        rw [hst]
        exact .leftOut dissent
      | ended hopen prompted =>
        obtain ⟨es', r', v, hrest, hlater', htrace⟩ := ih t
        refine ⟨_, _, v, perform_reviewGroups_next hquit hdef rfl
          (perform_applyUsages_of_not write g rfl t) hrest, hlater.trans hlater',
          .next hquit ?_ htrace⟩
        rw [hst]
        exact .ended hopen prompted
      | quit hopen prompted =>
        refine ⟨es, .ok [.quit g.definition.path], t, ?_, hlater, ?_⟩
        · unfold reviewGroups
          rw [perform_get_bind, hquit, if_neg (by simp), perform_bind_ok hdef]
          rfl
        · rw [hst]
          exact .last hquit (.quit hopen prompted)
      | interrupted hopen prompted =>
        refine ⟨es, .error .interrupt, t, ?_, hlater, ?_⟩
        · unfold reviewGroups
          rw [perform_get_bind, hquit, if_neg (by simp), perform_bind_error hdef]
        · rw [hst]
          exact .last hquit (.interrupted hopen prompted)

/-- Apart from lines that are told first, results are reviewed by reviewing their groups. -/
theorem perform_reviewWith_of_groups (settings : Settings) (write : Output.Writer)
    (rs : List FileResult) (s : State) :
    ∃ lines, ∀ r s',
      perform (reviewGroups settings write (groups (changed rs))) (s.tell lines) = (r, s') →
        perform (reviewWith settings write rs) s = (r.map (failures rs ++ ·), s') := by
  unfold reviewWith
  rw [perform_say_bind]
  dsimp only
  cases changed rs with
  | nil =>
    rw [if_pos List.isEmpty_nil, perform_say_bind, State.tell_tell, perform_pure]
    apply Exists.intro
    rintro r s' ⟨⟩
    exact Prod.ext (by simp [Except.map]) rfl
  | cons c cs =>
    rw [if_neg (by simp), perform_say_bind, perform_say_bind, State.tell_tell, State.tell_tell]
    apply Exists.intro
    intro r s' hgroups
    cases r with
    | ok os =>
      rw [perform_bind_ok hgroups]
      rfl
    | error e =>
      rw [perform_bind_error hgroups]
      rfl

/-- Every review runs along a chain of visits of the groups of changed files. -/
theorem perform_reviewWith (settings : Settings) (write : Output.Writer) (rs : List FileResult)
    (s : State) :
    ∃ es r s', perform (reviewWith settings write rs) s = (r.map (failures rs ++ ·), s') ∧
      Later s es s' ∧ Trace s.standing (groups (changed rs)) es r s'.standing := by
  obtain ⟨lines, hgroups⟩ := perform_reviewWith_of_groups settings write rs s
  obtain ⟨es, r, s', hrun, hlater, htrace⟩ :=
    perform_reviewGroups settings write (groups (changed rs)) (s.tell lines)
  exact ⟨es, r, s', hgroups r s' hrun, hlater.of_tell, htrace⟩

end Restyle.Review

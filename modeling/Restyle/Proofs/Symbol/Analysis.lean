import Restyle.Proofs.Source.Session
import Restyle.Proofs.Syntax.Traversal
import Restyle.Proofs.Table
import Restyle.Symbol.Analyze
import Restyle.Symbol.Plan

/-!
What an analysis finds. Every file that holds a source adds its definitions, imports and usages
after those of the files before it, and other files add nothing.
-/

namespace Restyle.Symbol

open Disk (Path)
open Syntax

variable {d : Disk} {p : Path}

/-! ### What a file adds -/

/-- What is told of a file without a source: nothing if it is missing or malformed. -/
def toldOf (f : Source.FileFault) : Except Session.Fault (List Definition) :=
  match Session.faultOf f with
  | .complaint .notFound _ => .ok []
  | .complaint .grammar _ => .ok []
  | fault => .error fault

theorem toldOf_cases (f : Source.FileFault) : toldOf f = .ok [] ∨ ∃ e, toldOf f = .error e := by
  unfold toldOf
  split <;> simp

section Files

variable [Dialect]

def definitionsOf (d : Disk) (p : Path) : List Definition :=
  match Source.ofFile d p with
  | .ok source => (elements source.tree).map (⟨p, ·⟩)
  | .error _ => []

def importsOf (d : Disk) (p : Path) : List Import :=
  match Source.ofFile d p with
  | .ok source => source.tree.breadthFirst.flatMap (importsAt p)
  | .error _ => []

def usagesOf (d : Disk) (p : Path) : List Usage :=
  match Source.ofFile d p with
  | .ok source => source.tree.preorder.filterMap (usageAt? p)
  | .error _ => []

theorem definitionsFrom_of_ok {source : Source} (s : Session)
    (h : Source.ofFile d p = .ok source) : definitionsFrom s d p =
      (.keep source, .ok ((elements source.tree).map (⟨p, ·⟩))) := by
  rw [definitionsFrom, Session.loadFile_of_ok h]
  rfl

theorem definitionsFrom_of_error {f : Source.FileFault} (s : Session)
    (h : Source.ofFile d p = .error f) : definitionsFrom s d p = (s, toldOf f) := by
  rw [definitionsFrom, Session.loadFile_of_error h, toldOf]
  cases Session.faultOf f with
  | complaint kind message => cases kind <;> rfl
  | _ => rfl

/-- What a session has read before makes no difference to what it finds. -/
theorem definitionsFrom_eq_definitionsIn (s : Session) (d : Disk) (p : Path) :
    (definitionsFrom s d p).2 = definitionsIn d p := by
  rw [definitionsIn]
  cases h : Source.ofFile d p with
  | ok source => rw [definitionsFrom_of_ok s h, definitionsFrom_of_ok .start h]
  | error f => rw [definitionsFrom_of_error s h, definitionsFrom_of_error .start h]

theorem treeIn?_of_ok {source : Source} (h : Source.ofFile d p = .ok source) :
    treeIn? d p = .ok (some source.tree) := by
  obtain ⟨text, tree, htext, hparse, rfl⟩ := Source.exists_of_ofFile h
  unfold treeIn?
  rw [htext]
  dsimp only
  rw [hparse]

theorem treeIn?_of_error {f : Source.FileFault} (h : Source.ofFile d p = .error f) :
    treeIn? d p = .ok none ∨ ∃ r, treeIn? d p = .error r := by
  unfold treeIn?
  cases htext : Source.readText d p with
  | error f => cases f <;> simp
  | ok text =>
    dsimp only
    cases hparse : parse? text with
    | none => exact .inl rfl
    | some tree =>
      rw [Source.ofFile_of_parse htext hparse] at h
      cases h

end Files

/-! ### What a step adds -/

/-- `m'` knows what `m` knows, followed by these definitions, usages and imports. -/
structure Adds (ds : List Definition) (us : List Usage) (is : List Import)
    (m m' : SymbolMap) : Prop where
  definitions : ∀ x, Index.all m'.definitions x =
    Index.all m.definitions x ++ ds.filter (·.element.name = x)
  usages : ∀ x, Index.all m'.usages x = Index.all m.usages x ++ us.filter (·.name = x)
  imports : m'.imports = m.imports ++ is
  keys : m.definitions.keys.Nodup → m'.definitions.keys.Nodup
  order : ∀ names, Index.InOrder names m.definitions.keys →
    Index.InOrder (names ++ ds.map (·.element.name)) m'.definitions.keys

theorem Adds.refl (m : SymbolMap) : Adds [] [] [] m m where
  definitions := by simp
  usages := by simp
  imports := by simp
  keys := id
  order := by simp

theorem Adds.trans {ds ds' : List Definition} {us us' : List Usage} {is is' : List Import}
    {m m' m'' : SymbolMap} (h : Adds ds us is m m') (h' : Adds ds' us' is' m' m'') :
    Adds (ds ++ ds') (us ++ us') (is ++ is') m m'' where
  definitions x := by
    rw [h'.definitions, h.definitions, List.filter_append, List.append_assoc]
  usages x := by
    rw [h'.usages, h.usages, List.filter_append, List.append_assoc]
  imports := by
    rw [h'.imports, h.imports, List.append_assoc]
  keys := h'.keys ∘ h.keys
  order names hm := by
    rw [List.map_append, ← List.append_assoc]
    exact h'.order _ (h.order names hm)

theorem adds_session (m : SymbolMap) (s : Session) : Adds [] [] [] m { m with session := s } where
  definitions := by simp
  usages := by simp
  imports := by simp
  keys := id
  order := by simp

theorem adds_addDefinitions (m : SymbolMap) (ds : List Definition) :
    Adds ds [] [] m (m.addDefinitions ds) where
  definitions := Index.all_addAll (fun d : Definition => d.element.name) ds m.definitions
  usages := by simp [SymbolMap.addDefinitions]
  imports := by simp [SymbolMap.addDefinitions]
  keys := Index.nodup_keys_addAll (fun d : Definition => d.element.name) ds m.definitions
  order _ := Index.inOrder_addAll (fun d : Definition => d.element.name) ds

theorem adds_addUsages (m : SymbolMap) (us : List Usage) : Adds [] us [] m (m.addUsages us) where
  definitions := by simp [SymbolMap.addUsages]
  usages := Index.all_addAll Usage.name us m.usages
  imports := by simp [SymbolMap.addUsages]
  keys := id
  order := by simp [SymbolMap.addUsages]

theorem adds_imports (m : SymbolMap) (is : List Import) :
    Adds [] [] is m { m with imports := m.imports ++ is } where
  definitions := by simp
  usages := by simp
  imports := rfl
  keys := id
  order := by simp

theorem adds_addNames [Dialect] (d : Disk) (m : SymbolMap) (p : Path) :
    Adds (definitionsOf d p) [] (importsOf d p) m (SymbolMap.addNames d m p).1 := by
  unfold definitionsOf importsOf SymbolMap.addNames
  cases h : Source.ofFile d p with
  | ok source =>
    have himports : importsIn d p = .ok (source.tree.breadthFirst.flatMap (importsAt p)) := by
      unfold importsIn
      rw [treeIn?_of_ok h]
      rfl
    rw [definitionsFrom_of_ok m.session h]
    dsimp only
    rw [himports]
    have hadds := (adds_session m (.keep source)).trans ((adds_addDefinitions _
      ((elements source.tree).map (⟨p, ·⟩))).trans
        (adds_imports _ (source.tree.breadthFirst.flatMap (importsAt p))))
    simpa only [List.append_nil, List.nil_append] using hadds
  | error f =>
    -- without a source the step adds empty lists, or stops with a warning before it adds any
    rw [definitionsFrom_of_error m.session h]
    rcases toldOf_cases f with hnone | ⟨e, he⟩
    · rw [hnone]
      dsimp only
      rcases treeIn?_of_error h with htree | ⟨r, hr⟩
      · have himports : importsIn d p = .ok [] := by
          unfold importsIn
          rw [htree]
          rfl
        rw [himports]
        exact (adds_addDefinitions m []).trans (adds_imports _ [])
      · have himports : importsIn d p = .error r := by
          unfold importsIn
          rw [hr]
          rfl
        rw [himports]
        exact adds_addDefinitions m []
    · rw [he]
      exact Adds.refl m

theorem adds_addUses [Dialect] (d : Disk) (m : SymbolMap) (p : Path) :
    Adds [] (usagesOf d p) [] m (SymbolMap.addUses d m p).1 := by
  unfold usagesOf SymbolMap.addUses usagesIn
  cases h : Source.ofFile d p with
  | ok source =>
    rw [treeIn?_of_ok h]
    exact adds_addUsages m _
  | error f =>
    rcases treeIn?_of_error h with hnone | ⟨r, hr⟩
    · rw [hnone]
      exact adds_addUsages m []
    · rw [hr]
      exact Adds.refl m

/-! ### What an analysis adds -/

/-- What a step adds for each path, a run adds for all of them in their order. -/
theorem adds_overPaths {step : SymbolMap → Path → SymbolMap × List String}
    {ds : Path → List Definition} {us : Path → List Usage} {is : Path → List Import}
    (hstep : ∀ m p, Adds (ds p) (us p) (is p) m (step m p).1) (m : SymbolMap)
    (paths : List Path) :
    Adds (paths.flatMap ds) (paths.flatMap us) (paths.flatMap is) m
      (SymbolMap.overPaths step m paths).1 := by
  have hrun (acc : SymbolMap × List String) :
      Adds (paths.flatMap ds) (paths.flatMap us) (paths.flatMap is) acc.1
        (paths.foldl (fun acc p => ((step acc.1 p).1, acc.2 ++ (step acc.1 p).2)) acc).1 := by
    induction paths generalizing acc with
    | nil => exact Adds.refl acc.1
    | cons p paths ih =>
      exact (hstep acc.1 p).trans (ih ((step acc.1 p).1, acc.2 ++ (step acc.1 p).2))
  exact hrun (m, [])

/-- An analysis adds what all files have, file by file. -/
theorem adds_analyze [Dialect] {m : SymbolMap} {root : Path} {paths : List Path}
    (h : (m.analyze d root paths).fault = none) :
    Adds (paths.flatMap (definitionsOf d)) (paths.flatMap (usagesOf d))
      (paths.flatMap (importsOf d)) m (m.analyze d root paths).map := by
  unfold SymbolMap.analyze at h ⊢
  cases htables : moduleTables root paths with
  | error e =>
    rw [htables] at h
    cases h
  | ok tables =>
    obtain ⟨moduleOf, fileOf⟩ := tables
    dsimp only
    have htables : Adds [] [] [] m { m with moduleOf := moduleOf, fileOf := fileOf } :=
      ⟨(Adds.refl m).definitions, (Adds.refl m).usages, (Adds.refl m).imports, id,
        (Adds.refl m).order⟩
    have hnames := adds_overPaths (adds_addNames d)
      { m with moduleOf := moduleOf, fileOf := fileOf } paths
    have huses := adds_overPaths (adds_addUses d)
      (SymbolMap.overPaths (SymbolMap.addNames d)
        { m with moduleOf := moduleOf, fileOf := fileOf } paths).1 paths
    have hall := htables.trans (hnames.trans huses)
    have hnone {α : Type} : (paths.flatMap fun _ => ([] : List α)) = [] := by
      simp [List.flatMap_eq_nil_iff]
    simpa [hnone] using hall

end Restyle.Symbol

import Restyle.Proofs.Element.Names
import Restyle.Proofs.Symbol.Analysis

/-!
How often a name is used. A file uses a name once for each place where it is read, once for each
place where it is taken from a name before a dot, and once more for each such place that is called.
The main statement is that what is recorded for a name are exactly these places, whatever is known
about imports.
-/

namespace Restyle.Symbol

open Disk (Path)
open Syntax

/-! ### Places -/

def reads (x : String) (n : Tree) : Bool := n.label = .name x .load

def takes (x : String) (n : Tree) : Bool :=
  match n.label with
  | .attr a _ => a == x && (n.part? .value).any fun v => (nameOf? v).isSome
  | _ => false

def calls (x : String) (n : Tree) : Bool :=
  n.label = .call && (n.part? .func).any fun f => nameOf? f == some x || takes x f

def nodeCount (test : Tree → Bool) (t : Tree) : Nat := t.breadthFirst.countP test

/-! ### What a node uses -/

theorem any_memberOf? (x : String) (n : Tree) :
    ((memberOf? n).any fun m => m.2 == x) = takes x n := by
  obtain ⟨l, r, s, cs⟩ := n
  cases l with
  | attr a access =>
    change (((Tree.part? _ .value).bind nameOf?).map fun owner => (owner, a)).any _ =
      (a == x && (Tree.part? _ .value).any fun v => (nameOf? v).isSome)
    cases (Syntax.Tree.node (.attr a access) r s cs).part? .value with
    | none => simp
    | some v =>
      rw [Option.bind_some, Option.any_some]
      cases nameOf? v <;> simp
  | _ => rfl

/-- A name is no member. -/
theorem takes_of_nameOf? {x id : String} {n : Tree} (h : nameOf? n = some id) :
    takes x n = false := by
  obtain ⟨l, r, s, cs⟩ := n
  cases l with
  | name => rfl
  | _ => cases h

theorem any_usageAt?_of_call (p : Path) (x : String) {n : Tree} (h : n.label = .call) :
    (usageAt? p n).any (·.name == x) = calls x n := by
  unfold usageAt? calls
  rw [h, decide_eq_true rfl, Bool.true_and]
  dsimp only
  cases n.part? .func with
  | none => rfl
  | some f =>
    rw [Option.bind_some, Option.any_some]
    cases hname : nameOf? f with
    | some id => simp [takes_of_nameOf? hname]
    | none =>
      dsimp only
      rw [Option.any_map, ← any_memberOf?]
      simp

/-- What a node uses is a name that it reads, a member that it takes, or what it calls; no node is
two of these. -/
theorem any_usageAt? (p : Path) (x : String) (n : Tree) :
    (if (usageAt? p n).any (·.name == x) then 1 else 0) =
      (if reads x n then 1 else 0) + (if takes x n then 1 else 0) + if calls x n then 1 else 0 := by
  obtain ⟨l, r, s, cs⟩ := n
  cases l with
  | name id access =>
    cases access <;> simp [usageAt?, reads, takes, calls, beq_eq_decide]
  | attr a access =>
    have hmember : (usageAt? p (.node (.attr a access) r s cs)).any (·.name == x) =
        takes x (.node (.attr a access) r s cs) := by
      rw [← any_memberOf?]
      change ((memberOf? _).map _).any _ = _
      rw [Option.any_map]
    rw [hmember]
    simp [reads, calls]
  | call =>
    have hnone : reads x (.node .call r s cs) = false ∧ takes x (.node .call r s cs) = false :=
      ⟨rfl, rfl⟩
    rw [any_usageAt?_of_call p x rfl, hnone.1, hnone.2]
    simp
  | _ => rfl

theorem countP_usages (p : Path) (x : String) (ns : List Tree) :
    (ns.filterMap (usageAt? p)).countP (·.name == x) =
      ns.countP (reads x) + ns.countP (takes x) + ns.countP (calls x) := by
  have hany (u : Option Usage) : ((u.map (·.name == x)).getD false) = u.any (·.name == x) := by
    cases u <;> rfl
  simp only [List.countP_filterMap, hany]
  induction ns with
  | nil => rfl
  | cons n ns ih =>
    have hnode := any_usageAt? p x n
    rw [List.countP_cons, List.countP_cons, List.countP_cons, List.countP_cons, ih, hnode]
    omega

/-! ### What is recorded for a file -/

theorem usagesIn_of_ok [Dialect] {d : Disk} {p : Path} {source : Source}
    (h : Source.ofFile d p = .ok source) (imported : NameMap) :
    usagesIn d p imported = .ok (source.tree.preorder.filterMap (usageAt? p)) := by
  unfold usagesIn
  rw [treeIn?_of_ok h]
  rfl

theorem nodeCount_eq (test : Tree → Bool) (t : Tree) :
    nodeCount test t = t.preorder.countP test :=
  (Tree.perm_breadthFirst t).countP_eq test

section Node

variable {p : Path} {x : String} {n : Tree}

theorem any_usageAt?_of_reads_or_takes (h : reads x n = true ∨ takes x n = true) :
    (usageAt? p n).any (·.name == x) = true := by
  have hnode := any_usageAt? p x n
  grind

/-- In the tree of a source, a name that is called is read. -/
theorem reads_of_called [Dialect] {f tree : Tree} {text : List Char}
    (hparse : parse? text = some tree) (hn : n ∈ tree.preorder) (hcall : n.label = .call)
    (hf : n.part? .func = some f) (hname : nameOf? f = some x) : reads x f = true := by
  have hlike := (treeLike_self hparse).of_mem_preorder hn
  obtain ⟨l, r, s, cs⟩ := n
  obtain rfl : l = .call := hcall
  cases hlike with
  | node _ _ _ hcallee =>
    cases cs with
    | nil => cases hf
    | cons g cs =>
      -- the first child is what is called
      obtain ⟨hrole, hread⟩ := Bool.and_eq_true_iff.mp hcallee
      obtain rfl : g = f := by simpa [Tree.part?, hrole] using hf
      obtain ⟨l, r, s, cs⟩ := g
      cases l with
      | name id access =>
        cases hname
        simpa [reads, Label.isRead] using hread
      | _ => cases hname

theorem usageAt?_of_attr {access : Access} {v : Tree} (hattr : n.label = .attr x access)
    (hv : n.part? .value = some v) (hname : nameOf? v = none) : usageAt? p n = none := by
  unfold usageAt? memberOf?
  rw [hattr]
  dsimp only
  rw [hv, Option.bind_some, hname]
  rfl

end Node

/-- For a name a file records as many usages as there are nodes that read the name, that take it
from a name, and that call it either way. So a name that is called either way is recorded twice, at
the call and at what is called, and a member of anything but a name is not recorded. The usages are
added to those already known, whatever else is known. -/
theorem usages_counted [Dialect] (d : Disk) (p : Path) (text : List Char) (tree : Tree)
    (htext : Source.readText d p = .ok text) (hparse : parse? text = some tree) (x : String) :
    ∃ us, (∀ imported, usagesIn d p imported = .ok us) ∧ us = tree.preorder.filterMap (usageAt? p) ∧
      us.countP (·.name == x) =
        nodeCount (reads x) tree + nodeCount (takes x) tree + nodeCount (calls x) tree ∧
      (∀ n ∈ tree.preorder, calls x n = true → (usageAt? p n).any (·.name == x) = true ∧
        ∃ f ∈ tree.preorder, n.part? .func = some f ∧ (usageAt? p f).any (·.name == x) = true) ∧
      (∀ n ∈ tree.preorder, ∀ access v, n.label = .attr x access → n.part? .value = some v →
        nameOf? v = none → usageAt? p n = none) ∧
      ∀ m : SymbolMap, Index.all (m.addUses d p).1.usages x =
        Index.all m.usages x ++ us.filter (·.name = x) := by
  have hfile := Source.ofFile_of_parse htext hparse
  refine ⟨_, usagesIn_of_ok hfile, rfl, ?_, ?_, ?_, fun m => ?_⟩
  · rw [nodeCount_eq, nodeCount_eq, nodeCount_eq]
    exact countP_usages p x tree.preorder
  · intro n hn hcalls
    obtain ⟨hcall, hcallee⟩ := Bool.and_eq_true_iff.mp hcalls
    have hcall : n.label = .call := of_decide_eq_true hcall
    obtain ⟨f, hf, hcallee⟩ := (Option.any_eq_true _ _).mp hcallee
    refine ⟨by rw [any_usageAt?_of_call p x hcall, hcalls], f,
      Tree.child_mem_preorder (List.mem_of_find?_eq_some hf) hn, hf,
      any_usageAt?_of_reads_or_takes ?_⟩
    rw [Bool.or_eq_true, beq_iff_eq] at hcallee
    exact hcallee.imp_left (reads_of_called hparse hn hcall hf)
  · intro n _ access v hattr hv hname
    exact usageAt?_of_attr hattr hv hname
  · have hadds := (adds_addUses d m p).usages x
    rw [usagesOf, hfile] at hadds
    exact hadds

def nestedCalls : List Char := "f(names.f())\n".toList

def callingDisk : Disk :=
  ⟨.dir .directory [("uses.py", .file .file (Text.encode nestedCalls))], false, some []⟩

theorem usages_counted_nested : ∃ tree us, parse? nestedCalls = some tree ∧
    usagesIn callingDisk ⟨"", ["uses.py"]⟩ = .ok us ∧ us.countP (·.name == "f") = 1 + 1 + 2 := by
  have htext : Source.readText callingDisk ⟨"", ["uses.py"]⟩ = .ok nestedCalls := by decide +kernel
  have hcounts : ∃ tree ∈ parse? nestedCalls, nodeCount (reads "f") tree = 1 ∧
      nodeCount (takes "f") tree = 1 ∧ nodeCount (calls "f") tree = 2 := by decide +kernel
  obtain ⟨tree, hparse, hreads, htakes, hcalls⟩ := hcounts
  obtain ⟨us, hus, -, hcount, -⟩ := usages_counted _ _ _ tree htext hparse "f"
  rw [hreads, htakes, hcalls] at hcount
  exact ⟨tree, us, hparse, hus .empty, hcount⟩

end Restyle.Symbol

import Mathlib.Data.List.Perm.Subperm
import Restyle.Output.Write
import Restyle.Proofs.Disk.Operations
import Restyle.Proofs.Naming.Spelled

/-!
Writing under new names. The names are numbered, and they all stand in one directory, which has
fewer entries than the disk has nodes: so the search for a free name ends at the first one, and
never for want of tries. The main statement follows a sequence of calls. Each of them creates one
file or changes nothing, so what was there at the start and what has been written stays.
-/

namespace Restyle.Output

open Disk (Path Node Way Grows Gains)

/-! ### The numbered names -/

/-- The piece of a path that has its number in it. -/
def numbered (front back : List Char) (number : Nat) : String :=
  String.ofList (front ++ (('_' :: Nat.toDigits 10 number) ++ back))

theorem numbered_injective (front back : List Char) :
    Function.Injective (numbered front back) := by
  intro i j h
  have hchars := String.ofList_injective h
  have hdigits : Nat.toDigits 10 i = Nat.toDigits 10 j := by simpa using hchars
  have hvalues := congrArg (fun digits => Nat.ofDigitChars 10 digits 0) hdigits
  simpa using hvalues

theorem numbered_ne (front back : List Char) (number : Nat) {s : String} (h : '_' ∉ s.toList) :
    numbered front back number ≠ s := by
  rintro rfl
  simp [numbered] at h

theorem slash_notMem_number (number : Nat) : '/' ∉ '_' :: Nat.toDigits 10 number := by
  intro h
  rcases List.mem_cons.mp h with h | h
  · cases h
  · have hdigit := Nat.isDigit_of_mem_toDigits (by decide) (by decide) h
    cases hdigit

def namesAmong (pieces : List (List Char)) : List String :=
  (pieces.map String.ofList).filter fun n => n != "" && n != "."

theorem namesAmong_append (pieces more : List (List Char)) :
    namesAmong (pieces ++ more) = namesAmong pieces ++ namesAmong more := by
  simp [namesAmong]

theorem namesAmong_numbered (front back : List Char) (number : Nat) (pieces : List (List Char)) :
    namesAmong ((front ++ (('_' :: Nat.toDigits 10 number) ++ back)) :: pieces) =
      numbered front back number :: namesAmong pieces := by
  have hempty : numbered front back number ≠ "" := numbered_ne front back number (by decide)
  have hdot : numbered front back number ≠ "." := numbered_ne front back number (by decide)
  apply List.filter_cons_of_pos
  change (numbered front back number != "" && numbered front back number != ".") = true
  simp [hempty, hdot]

theorem names_parse (s : List Char) :
    (Path.parse (String.ofList s)).names = namesAmong (Text.splitOn '/' s) := by
  rw [Path.parse, String.toList_ofList]
  rfl

theorem root_parse_append (s t : List Char) (c : Char) (hc : c ≠ '/') :
    (Path.parse (String.ofList (s ++ c :: t))).root = (Path.parse (String.ofList s)).root := by
  have hslashes : ((s ++ c :: t).takeWhile (· == '/')).length =
      (s.takeWhile (· == '/')).length := by
    rw [List.takeWhile_append]
    split
    next h => simp [h, hc]
    next => rfl
  simp only [Path.parse, String.toList_ofList, hslashes]

/-- A number in a path stands in one of its names, and the rest does not depend on it. -/
theorem exists_parse_eq (s t : List Char) :
    ∃ root lead front back rest, ∀ number,
      Path.parse (String.ofList (s ++ (('_' :: Nat.toDigits 10 number) ++ t))) =
        ⟨root, lead ++ numbered front back number :: rest⟩ := by
  refine ⟨(Path.parse (String.ofList s)).root, namesAmong (Text.splitOn '/' s).dropLast,
    (Text.splitOn '/' s).getLastD [], (Text.splitOn '/' t).headD [],
    namesAmong (Text.splitOn '/' t).tail, fun number => ?_⟩
  have hroot := root_parse_append s (Nat.toDigits 10 number ++ t) '_' (by decide)
  have hnames := names_parse (s ++ (('_' :: Nat.toDigits 10 number) ++ t))
  rw [Text.splitOn_append_append (slash_notMem_number number), namesAmong_append,
    namesAmong_numbered] at hnames
  rw [← hroot, ← hnames]
  rfl

theorem newPath_eq_parse (path : Path) (suffix : String) {number : Nat} (h : 0 < number) :
    newPath path suffix number = path.parent ++ Path.parse (String.ofList
      ((path.stem ++ suffix).toList ++
        (('_' :: Nat.toDigits 10 number) ++ path.suffix.toList))) := by
  have hmark : s!"_{number}" = String.ofList ('_' :: Nat.toDigits 10 number) := by
    rw [Nat.toString_eq_ofList_toDigits, String.ofList_cons]
    rfl
  unfold newPath
  rw [if_neg (Nat.ne_of_gt h), hmark]
  simp [String.append_assoc]

/-- From the first number on, the paths differ in one name only. -/
theorem exists_newPath_eq (path : Path) (suffix : String) :
    ∃ root lead front back rest, ∀ number, 0 < number →
      newPath path suffix number = ⟨root, lead ++ numbered front back number :: rest⟩ := by
  obtain ⟨root, lead, front, back, rest, h⟩ :=
    exists_parse_eq (path.stem ++ suffix).toList path.suffix.toList
  cases hroot : root.isEmpty with
  | true =>
    refine ⟨path.parent.root, path.parent.names ++ lead, front, back, rest, ?_⟩
    intro number hpos
    rw [newPath_eq_parse path suffix hpos, h, List.append_assoc]
    exact if_neg (by simp [Path.isAbsolute, hroot])
  | false =>
    refine ⟨root, lead, front, back, rest, ?_⟩
    intro number hpos
    rw [newPath_eq_parse path suffix hpos, h]
    exact if_pos (by simp [Path.isAbsolute, hroot])

/-! ### The search for a free name -/

section Search

variable (d : Disk) (path : Path) (suffix : String)

/-- A path that leads through a name has an entry of that name on its way. -/
theorem exists_entry_of_exists? {d : Disk} {root name : String} {lead rest : List String}
    (hname : name ≠ "..") (h : d.exists? ⟨root, lead ++ name :: rest⟩ = .ok true) :
    ∃ here m entries, d.place ⟨root, lead⟩ = .ok here ∧
      d.root.get? here = some (.dir m entries) ∧ name ∈ entries.map (·.1) := by
  obtain ⟨-, n, hnode⟩ := Disk.exists?_eq_true_iff.mp h
  have hremoved : ¬ d.IsRemoved ⟨root, lead ++ name :: rest⟩ := by
    rintro ⟨-, -, hnil⟩
    simp at hnil
  obtain ⟨place, hplace, -⟩ := (Disk.node_eq_ok_iff hremoved).mp hnode
  obtain ⟨start, hstart, hway⟩ := Disk.place_eq_ok_iff.mp hplace
  obtain ⟨here, hlead, hrest⟩ := hway.split
  have hplace : d.place ⟨root, lead⟩ = .ok here := Disk.place_eq_ok_iff.mpr ⟨start, hstart, hlead⟩
  cases hrest with
  | up => exact absurd rfl hname
  | down hdir _ _ _ hentry _ =>
    exact ⟨here, _, _, hplace, hdir, List.mem_map_of_mem (Table.mem_of_lookup hentry)⟩

/-- Not all of the paths that are tried exist: from the second on they would lead through different
entries of one directory, and there would be more of them than the disk has nodes. -/
theorem exists_free :
    ∃ number < d.root.size + 1, d.exists? (newPath path suffix number) ≠ .ok true := by
  by_contra hall
  push Not at hall
  obtain ⟨root, lead, front, back, rest, hnames⟩ := exists_newPath_eq path suffix
  have hentry : ∀ i < d.root.size, ∃ here m entries, d.place ⟨root, lead⟩ = .ok here ∧
      d.root.get? here = some (.dir m entries) ∧
      numbered front back (i + 1) ∈ entries.map (·.1) := by
    intro i hi
    have hexists := hall (i + 1) (by omega)
    rw [hnames (i + 1) (by omega)] at hexists
    exact exists_entry_of_exists? (numbered_ne front back (i + 1) (by decide)) hexists
  obtain ⟨here, m, entries, hplace, hdir, -⟩ := hentry 0 d.root.size_pos
  -- the directory is the same for all of them, since it does not depend on the number
  have hsubset : (List.range d.root.size).map (fun i => numbered front back (i + 1)) ⊆
      entries.map (·.1) := by
    intro name hname
    obtain ⟨i, hi, rfl⟩ := List.mem_map.mp hname
    obtain ⟨here', m', entries', hplace', hdir', hmem⟩ := hentry i (List.mem_range.mp hi)
    rw [hplace] at hplace'
    obtain rfl := Except.ok.inj hplace'
    rw [hdir] at hdir'
    cases hdir'
    exact hmem
  have hnodup : ((List.range d.root.size).map fun i => numbered front back (i + 1)).Nodup := by
    apply List.Nodup.map _ List.nodup_range
    intro i j hij
    exact Nat.succ.inj (numbered_injective front back hij)
  have hlength := (List.subperm_of_subset hnodup hsubset).length_le
  have hentries := Node.length_lt_size m entries
  have hsize := Node.size_le_of_get? hdir
  simp only [List.length_map, List.length_range] at hlength
  omega

/-- How the search ends: at a name that is free, at one that the system does not tell about, or for
want of tries. -/
theorem freePath_cases (tries number : Nat) :
    ∃ k, number ≤ k ∧
      (∀ j, number ≤ j → j < k → d.exists? (newPath path suffix j) = .ok true) ∧
      ((d.exists? (newPath path suffix k) = .ok false ∧
          freePath d path suffix tries number = .ok (newPath path suffix k)) ∨
        (∃ r, d.exists? (newPath path suffix k) = .error r ∧
          freePath d path suffix tries number = .error r) ∨
        k = number + tries) := by
  induction tries generalizing number with
  | zero => exact ⟨number, Nat.le_refl _, fun j hj hk => by omega, .inr (.inr rfl)⟩
  | succ tries ih =>
    rw [freePath]
    cases hexists : d.exists? (newPath path suffix number) with
    | error r =>
      exact ⟨number, Nat.le_refl _, fun j hj hk => by omega, .inr (.inl ⟨r, hexists, rfl⟩)⟩
    | ok found =>
      cases found with
      | false => exact ⟨number, Nat.le_refl _, fun j hj hk => by omega, .inl ⟨hexists, rfl⟩⟩
      | true =>
        obtain ⟨k, hk, htaken, hend⟩ := ih (number + 1)
        refine ⟨k, by omega, ?_, ?_⟩
        · intro j hj hjk
          by_cases hnumber : j = number
          · rw [hnumber, hexists]
          · exact htaken j (by omega) hjk
        · rcases hend with hfree | hrefused | htries
          · exact .inl hfree
          · exact .inr (.inl hrefused)
          · exact .inr (.inr (by omega))

end Search

/-! ### One call -/

/-- What one call comes to. The names are tried in their order as long as they exist. The first
other one is created with the text, or nothing changes since the system refuses it. -/
inductive Call (suffix : String) (d : Disk) (path : Path) (text : String) : WriteResult → Prop
  | created {k : Nat} {d' : Disk}
      (htaken : ∀ j < k, d.exists? (newPath path suffix j) = .ok true)
      (hfree : d.exists? (newPath path suffix k) = .ok false)
      (hnull : (newPath path suffix k).hasNull = false)
      (hgains : Gains d d' (newPath path suffix k) (Text.encode text.toList)) :
      Call suffix d path text ⟨d', .ok (newPath path suffix k)⟩
  | unknown {k : Nat} {r : Disk.Refusal}
      (htaken : ∀ j < k, d.exists? (newPath path suffix j) = .ok true)
      (hunknown : d.exists? (newPath path suffix k) = .error r) :
      Call suffix d path text ⟨d, .error (.refused r)⟩
  | unopened {k : Nat} {r : Disk.Refusal}
      (htaken : ∀ j < k, d.exists? (newPath path suffix j) = .ok true)
      (hfree : d.exists? (newPath path suffix k) = .ok false)
      (hopen : d.truncate (newPath path suffix k) = .error r) :
      Call suffix d path text ⟨d, .error (.refused r)⟩
  | unnameable {k : Nat}
      (htaken : ∀ j < k, d.exists? (newPath path suffix j) = .ok true)
      (hnull : (newPath path suffix k).hasNull = true) :
      Call suffix d path text ⟨d, .error .nullCharacter⟩

theorem call_write (suffix : String) (d : Disk) (path : Path) (text : String) :
    Call suffix d path text (write .newFiles suffix d path (some text)) := by
  change Call suffix d path text (writeNew d path suffix (some text))
  obtain ⟨k, -, htaken, hend⟩ := freePath_cases d path suffix (d.root.size + 1) 0
  have htaken : ∀ j < k, d.exists? (newPath path suffix j) = .ok true :=
    fun j => htaken j (Nat.zero_le j)
  unfold writeNew
  rcases hend with ⟨hfree, hpath⟩ | ⟨r, hrefused, hpath⟩ | htries
  · rw [hpath]
    dsimp only [writeText]
    cases hnull : (newPath path suffix k).hasNull with
    | true => exact .unnameable htaken hnull
    | false =>
      cases hopen : d.truncate (newPath path suffix k) with
      | error r => exact .unopened htaken hfree hopen
      | ok opened =>
        have hmissing : ∀ n, d.node (newPath path suffix k) ≠ .ok n := by
          intro n hn
          have hexists := Disk.exists?_eq_true_iff.mpr ⟨hnull, n, hn⟩
          rw [hfree] at hexists
          cases hexists
        exact .created htaken hfree hnull (Disk.gains_of_truncate hmissing hopen _)
  · rw [hpath]
    exact .unknown htaken hrefused
  · -- all tries were made in vain, which cannot be
    obtain ⟨number, hlt, hother⟩ := exists_free d path suffix
    exact absurd (htaken number (by omega)) hother

section Call

variable {suffix : String} {d : Disk} {path target : Path} {text : String} {w : WriteResult}

theorem Call.grows (h : Call suffix d path text w) : Grows d w.disk := by
  cases h with
  | created _ _ _ hgains => exact hgains.grows
  | unknown => exact .refl d
  | unopened => exact .refl d
  | unnameable => exact .refl d

/-- A call that succeeds writes a file that was not there and is there afterwards. -/
theorem Call.of_ok (h : Call suffix d path text w) (hok : w.outcome = .ok target) :
    d.exists? target = .ok false ∧ w.disk.exists? target = .ok true ∧
      w.disk.node target = .ok (.file .file (Text.encode text.toList)) := by
  cases h with
  | created _ hfree hnull hgains =>
    obtain rfl := Except.ok.inj hok
    exact ⟨hfree, Disk.exists?_eq_true_iff.mpr ⟨hnull, _, hgains.node⟩, hgains.node⟩
  | unknown => cases hok
  | unopened => cases hok
  | unnameable => cases hok

end Call

/-! ### Sequences of calls -/

def after (suffix : String) (d : Disk) (calls : List (Path × String)) : Disk :=
  calls.foldl (fun d c => (write .newFiles suffix d c.1 (some c.2)).disk) d

/-- The files that were written on the way, with their texts. -/
def outputs (suffix : String) (d : Disk) : List (Path × String) → List (Path × String)
  | [] => []
  | c :: rest =>
    let w := write .newFiles suffix d c.1 (some c.2)
    (w.outcome.toOption.map (·, c.2)).toList ++ outputs suffix w.disk rest

section Sequence

variable {suffix : String} {d : Disk} {c o : Path × String} {calls rest : List (Path × String)}

theorem after_cons (suffix : String) (d : Disk) (c : Path × String)
    (rest : List (Path × String)) : after suffix d (c :: rest) =
      after suffix (write .newFiles suffix d c.1 (some c.2)).disk rest := by
  simp only [after, List.foldl_cons]

theorem outputs_cons_of_ok {target : Path}
    (h : (write .newFiles suffix d c.1 (some c.2)).outcome = .ok target) :
    outputs suffix d (c :: rest) =
      (target, c.2) :: outputs suffix (write .newFiles suffix d c.1 (some c.2)).disk rest := by
  rw [outputs, h]
  rfl

theorem outputs_cons_of_error {f : WriteFault}
    (h : (write .newFiles suffix d c.1 (some c.2)).outcome = .error f) :
    outputs suffix d (c :: rest) =
      outputs suffix (write .newFiles suffix d c.1 (some c.2)).disk rest := by
  rw [outputs, h]
  rfl

theorem grows_after (suffix : String) (d : Disk) (calls : List (Path × String)) :
    Grows d (after suffix d calls) := by
  induction calls generalizing d with
  | nil => exact .refl d
  | cons c rest ih =>
    rw [after_cons]
    exact (call_write suffix d c.1 c.2).grows.trans (ih _)

/-- What is written was not there at the start, and is there in the end. -/
theorem outputs_new_and_kept (h : o ∈ outputs suffix d calls) :
    d.exists? o.1 ≠ .ok true ∧
      (after suffix d calls).node o.1 = .ok (.file .file (Text.encode o.2.toList)) := by
  induction calls generalizing d with
  | nil => cases h
  | cons c rest ih =>
    have hcall := call_write suffix d c.1 c.2
    rw [after_cons]
    have hrest (hmem : o ∈ outputs suffix (write .newFiles suffix d c.1 (some c.2)).disk rest) :
        d.exists? o.1 ≠ .ok true ∧ (after suffix (write .newFiles suffix d c.1 (some c.2)).disk
          rest).node o.1 = .ok (.file .file (Text.encode o.2.toList)) := by
      obtain ⟨hnew, hnode⟩ := ih hmem
      exact ⟨fun hexists => hnew (hcall.grows.exists? hexists), hnode⟩
    cases hout : (write .newFiles suffix d c.1 (some c.2)).outcome with
    | error f =>
      rw [outputs_cons_of_error hout] at h
      exact hrest h
    | ok target =>
      rw [outputs_cons_of_ok hout] at h
      rcases List.mem_cons.mp h with rfl | hmem
      · obtain ⟨hfree, -, hnode⟩ := hcall.of_ok hout
        obtain ⟨n', hnode', hkept⟩ := (grows_after suffix _ rest).node hnode
        cases hkept
        exact ⟨by simp [hfree], hnode'⟩
      · exact hrest hmem

theorem nodup_outputs (suffix : String) (d : Disk) (calls : List (Path × String)) :
    ((outputs suffix d calls).map (·.1)).Nodup := by
  induction calls generalizing d with
  | nil => exact List.nodup_nil
  | cons c rest ih =>
    cases hout : (write .newFiles suffix d c.1 (some c.2)).outcome with
    | error f =>
      rw [outputs_cons_of_error hout]
      exact ih _
    | ok target =>
      rw [outputs_cons_of_ok hout, List.map_cons, List.nodup_cons]
      refine ⟨?_, ih _⟩
      intro hmem
      obtain ⟨o, ho, hsame⟩ := List.mem_map.mp hmem
      obtain ⟨-, hexists, -⟩ := (call_write suffix d c.1 c.2).of_ok hout
      exact (outputs_new_and_kept ho).1 (hsame ▸ hexists)

end Sequence

/-- Writing under new names destroys nothing. Every call in a sequence ends, with the first free
name created or with the disk as it was; what a path led to at the start it still leads to in the
end, with the same content if it is a file; and the files that were written are different ones, and
hold the texts that were written to them. -/
theorem new_files_destroy_nothing (suffix : String) (d : Disk) (calls : List (Path × String)) :
    (∀ before path text rest, calls = before ++ (path, text) :: rest →
        Call suffix (after suffix d before) path text
          (write .newFiles suffix (after suffix d before) path (some text))) ∧
      (∀ p n, d.node p = .ok n → ∃ n', (after suffix d calls).node p = .ok n' ∧ n.Kept n') ∧
      ((outputs suffix d calls).map (·.1)).Nodup ∧
      ∀ o ∈ outputs suffix d calls,
        (after suffix d calls).node o.1 = .ok (.file .file (Text.encode o.2.toList)) := by
  refine ⟨?_, ?_, nodup_outputs suffix d calls, ?_⟩
  · intro before path text rest _
    exact call_write suffix (after suffix d before) path text
  · intro p n hnode
    exact (grows_after suffix d calls).node hnode
  · intro o ho
    exact (outputs_new_and_kept ho).2

def singleFile (content : List UInt8) : Disk :=
  ⟨.dir .directory [("shape.py", .file .file content)], false, some []⟩

def twoCalls : List (Path × String) := [(⟨"", ["shape.py"]⟩, "x"), (⟨"", ["shape.py"]⟩, "y")]

/-- Without a suffix the first name is the one of the file itself, which is left alone. -/
theorem new_files_destroy_nothing_sample :
    outputs "" (singleFile [120]) twoCalls =
        [(⟨"", ["shape_1.py"]⟩, "x"), (⟨"", ["shape_2.py"]⟩, "y")] ∧
      (∃ n, (after "" (singleFile [120]) twoCalls).node ⟨"", ["shape.py"]⟩ = .ok n ∧
        Node.Kept (.file .file [120]) n) ∧
      (after "" (singleFile [120]) twoCalls).node ⟨"", ["shape_2.py"]⟩ =
        .ok (.file .file (Text.encode "y".toList)) := by
  obtain ⟨-, hkept, -, hwritten⟩ := new_files_destroy_nothing "" (singleFile [120]) twoCalls
  have hshape : (singleFile [120]).node ⟨"", ["shape.py"]⟩ = .ok (.file .file [120]) := rfl
  have houtputs : outputs "" (singleFile [120]) twoCalls =
      [(⟨"", ["shape_1.py"]⟩, "x"), (⟨"", ["shape_2.py"]⟩, "y")] := by decide +kernel
  refine ⟨houtputs, hkept _ _ hshape, hwritten (⟨"", ["shape_2.py"]⟩, "y") ?_⟩
  rw [houtputs]
  simp

end Restyle.Output

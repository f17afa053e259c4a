import Restyle.Proofs.Disk.Tree

/-!
Paths followed on a disk. Where a path leads is said by a relation with one rule for each kind of
step, and it still leads there when files are added to the disk.
-/

namespace Restyle.Disk

open Node (Kept)

/-! ### Ways -/

/-- A list of names leads from one place to another. -/
inductive Way (d : Disk) : List String → List String → List String → Prop
  | stop (here : List String) : Way d here [] here
  | up {here rest there : List String} {m : Mode} {entries : List (String × Node)}
      (hdir : d.root.get? here = some (.dir m entries))
      (hsearch : d.maySearch (.dir m entries) = true) (hrest : Way d here.dropLast rest there) :
      Way d here (".." :: rest) there
  | down {here rest there : List String} {name : String} {m : Mode}
      {entries : List (String × Node)} {n : Node}
      (hdir : d.root.get? here = some (.dir m entries))
      (hsearch : d.maySearch (.dir m entries) = true) (hname : name ≠ "..")
      (hsize : name.utf8ByteSize ≤ maxNameBytes) (hentry : entries.lookup name = some n)
      (hrest : Way d (here ++ [name]) rest there) : Way d here (name :: rest) there

section Ways

variable {d : Disk} {here there mid names rest : List String} {name : String} {m : Mode}
  {entries : List (String × Node)}

theorem walk_cons_of_dir (h : d.root.get? here = some (.dir m entries)) (name : String)
    (rest : List String) :
    d.walk here (name :: rest) =
      if !d.maySearch (.dir m entries) then .error .denied
      else if name = ".." then d.walk here.dropLast rest
      else if name.utf8ByteSize > maxNameBytes then .error .nameTooLong
      else if (entries.lookup name).isNone then .error .notFound
      else d.walk (here ++ [name]) rest := by
  rw [walk, h]
  rfl

theorem Way.walk_append (h : Way d here names mid) (rest : List String) :
    d.walk here (names ++ rest) = d.walk mid rest := by
  induction h with
  | stop here => rfl
  | up hdir hsearch _ ih => simp [walk_cons_of_dir hdir, hsearch, ih]
  | down hdir hsearch hname hsize hentry _ ih =>
    simp [walk_cons_of_dir hdir, hsearch, hname, Nat.not_lt.mpr hsize, hentry, ih]

theorem Way.walk (h : Way d here names there) : d.walk here names = .ok there := by
  have hend : d.walk there [] = .ok there := rfl
  rw [← hend, ← h.walk_append [], List.append_nil]

theorem way_of_walk (h : d.walk here names = .ok there) : Way d here names there := by
  induction names generalizing here with
  | nil =>
    obtain rfl := Except.ok.inj h
    exact .stop here
  | cons name rest ih =>
    cases hhere : d.root.get? here with
    | none => simp [walk, hhere] at h
    | some n =>
      cases n with
      | file m content => simp [walk, hhere] at h
      | dir m entries =>
        simp only [walk_cons_of_dir hhere] at h
        split at h
        · cases h
        next hsearch =>
          have hsearch : d.maySearch (.dir m entries) = true := by simpa using hsearch
          split at h
          next hname =>
            subst hname
            exact .up hhere hsearch (ih h)
          next hname =>
            split at h
            · cases h
            next hsize =>
              split at h
              · cases h
              next hentry =>
                cases hn : entries.lookup name with
                | none => simp [hn] at hentry
                | some n =>
                  exact .down hhere hsearch hname (Nat.not_lt.mp hsize) hn (ih h)

theorem walk_eq_ok_iff : d.walk here names = .ok there ↔ Way d here names there :=
  ⟨way_of_walk, Way.walk⟩

theorem Way.append (h : Way d here names mid) (h' : Way d mid rest there) :
    Way d here (names ++ rest) there := by
  induction h with
  | stop here => exact h'
  | up hdir hsearch _ ih => exact .up hdir hsearch (ih h')
  | down hdir hsearch hname hsize hentry _ ih =>
    exact .down hdir hsearch hname hsize hentry (ih h')

theorem Way.split (h : Way d here (names ++ rest) there) :
    ∃ mid, Way d here names mid ∧ Way d mid rest there := by
  induction names generalizing here with
  | nil => exact ⟨here, .stop here, h⟩
  | cons name names ih =>
    cases h with
    | up hdir hsearch hrest =>
      obtain ⟨mid, hfirst, hsecond⟩ := ih hrest
      exact ⟨mid, .up hdir hsearch hfirst, hsecond⟩
    | down hdir hsearch hname hsize hentry hrest =>
      obtain ⟨mid, hfirst, hsecond⟩ := ih hrest
      exact ⟨mid, .down hdir hsearch hname hsize hentry hfirst, hsecond⟩

end Ways

/-! ### Paths -/

/-- Where a path starts, unless it starts from a directory that has been removed. -/
def start? (d : Disk) (p : Path) : Option (List String) := if p.isAbsolute then some [] else d.cwd

section Paths

variable {d : Disk} {p : Path} {place : List String} {n : Node}

theorem place_eq_ok_iff :
    d.place p = .ok place ↔ ∃ start, d.start? p = some start ∧ Way d start p.names place := by
  unfold Disk.place start?
  split
  · simp [walk_eq_ok_iff]
  · cases d.cwd with
    | none => simp
    | some here => simp [walk_eq_ok_iff]

/-- A removed working directory is still a directory of its own. -/
def IsRemoved (d : Disk) (p : Path) : Prop := p.isAbsolute = false ∧ d.cwd = none ∧ p.names = []

theorem node_of_isRemoved (h : d.IsRemoved p) : d.node p = .ok (.dir .directory []) := by
  obtain ⟨hrelative, hcwd, hnames⟩ := h
  simp [node, hrelative, hcwd, hnames]
  rfl

theorem place_of_isRemoved (h : d.IsRemoved p) : d.place p = .error .notFound := by
  obtain ⟨hrelative, hcwd, -⟩ := h
  simp [Disk.place, hrelative, hcwd]

theorem node_eq_ok_iff (h : ¬ d.IsRemoved p) :
    d.node p = .ok n ↔ ∃ place, d.place p = .ok place ∧ d.root.get? place = some n := by
  have hcond : (!p.isAbsolute && d.cwd.isNone && p.names.isEmpty) = false := by
    simpa [IsRemoved, and_assoc] using h
  rw [node, hcond]
  cases hplace : d.place p with
  | error r => simp [bind, Except.bind]
  | ok place =>
    cases hroot : d.root.get? place with
    | none => simp [bind, Except.bind, hroot]
    | some x => simp [bind, Except.bind, hroot, pure, Except.pure]

theorem node_of_place (hplace : d.place p = .ok place) (hroot : d.root.get? place = some n) :
    d.node p = .ok n := by
  have hremoved : ¬ d.IsRemoved p := by
    intro h
    rw [place_of_isRemoved h] at hplace
    cases hplace
  exact (node_eq_ok_iff hremoved).mpr ⟨place, hplace, hroot⟩

theorem ask_eq_true_iff {question : Node → Bool} :
    d.ask p question = .ok true ↔
      p.hasNull = false ∧ ∃ n, d.node p = .ok n ∧ question n = true := by
  unfold ask
  cases hnull : p.hasNull with
  | true => simp
  | false =>
    cases hnode : d.node p with
    | ok n => simp
    | error r => cases r <;> simp

theorem ask_of_node (hnull : p.hasNull = false) (hnode : d.node p = .ok n)
    (question : Node → Bool) : d.ask p question = .ok (question n) := by
  simp [ask, hnull, hnode]

theorem exists?_eq_true_iff :
    d.exists? p = .ok true ↔ p.hasNull = false ∧ ∃ n, d.node p = .ok n := by
  rw [exists?, ask_eq_true_iff]
  simp

theorem isFile?_of_isDir? (h : d.isDir? p = .ok true) : d.isFile? p = .ok false := by
  obtain ⟨hnull, n, hnode, hdir⟩ := ask_eq_true_iff.mp h
  rw [isFile?, ask_of_node hnull hnode]
  simpa [Node.isDir] using hdir

theorem isDir?_of_isFile? (h : d.isFile? p = .ok true) : d.isDir? p = .ok false := by
  obtain ⟨hnull, n, hnode, hfile⟩ := ask_eq_true_iff.mp h
  rw [isDir?, ask_of_node hnull hnode, Node.isDir, hfile]
  rfl

end Paths

/-! ### Growing -/

/-- Everything on the disk `d` is still there on `d'`, every file as it was. -/
structure Grows (d d' : Disk) : Prop where
  enforced : d'.enforced = d.enforced
  cwd : d'.cwd = d.cwd
  kept : ∀ names n, d.root.get? names = some n → ∃ n', d'.root.get? names = some n' ∧ Kept n n'

namespace Grows

variable {d d' d'' : Disk} {p : Path} {n : Node}

theorem refl (d : Disk) : Grows d d := ⟨rfl, rfl, fun _ n h => ⟨n, h, .refl n⟩⟩

theorem trans (h : Grows d d') (h' : Grows d' d'') : Grows d d'' where
  enforced := h'.enforced.trans h.enforced
  cwd := h'.cwd.trans h.cwd
  kept names n hn := by
    obtain ⟨n', hn', hkept⟩ := h.kept names n hn
    obtain ⟨n'', hn'', hkept'⟩ := h'.kept names n' hn'
    exact ⟨n'', hn'', hkept.trans hkept'⟩

theorem dir (h : Grows d d') {here : List String} {m : Mode} {entries : List (String × Node)}
    (hdir : d.root.get? here = some (.dir m entries)) :
    ∃ entries', d'.root.get? here = some (.dir m entries') := by
  obtain ⟨n', hn', hkept⟩ := h.kept here _ hdir
  cases hkept with
  | dir m entries entries' => exact ⟨entries', hn'⟩

theorem maySearch (h : Grows d d') {m : Mode} {entries entries' : List (String × Node)}
    (hsearch : d.maySearch (.dir m entries) = true) : d'.maySearch (.dir m entries') = true := by
  simpa [Disk.maySearch, Node.mode, h.enforced] using hsearch

theorem way (h : Grows d d') {here names there : List String} (hway : Way d here names there) :
    Way d' here names there := by
  induction hway with
  | stop here => exact .stop here
  | up hdir hsearch _ ih =>
    obtain ⟨entries', hdir'⟩ := h.dir hdir
    exact .up hdir' (h.maySearch hsearch) ih
  | @down here rest there name m entries n hdir hsearch hname hsize hentry _ ih =>
    obtain ⟨entries', hdir'⟩ := h.dir hdir
    rw [← Node.get?_concat_of_dir hdir] at hentry
    obtain ⟨n', hentry', -⟩ := h.kept _ n hentry
    rw [Node.get?_concat_of_dir hdir'] at hentry'
    exact .down hdir' (h.maySearch hsearch) hname hsize hentry' ih

theorem place (h : Grows d d') {names : List String} (hplace : d.place p = .ok names) :
    d'.place p = .ok names := by
  obtain ⟨start, hstart, hway⟩ := place_eq_ok_iff.mp hplace
  have hstart' : d'.start? p = some start := by rw [← hstart, start?, start?, h.cwd]
  exact place_eq_ok_iff.mpr ⟨start, hstart', h.way hway⟩

theorem node (h : Grows d d') (hnode : d.node p = .ok n) :
    ∃ n', d'.node p = .ok n' ∧ Kept n n' := by
  by_cases hremoved : d.IsRemoved p
  · have hremoved' : d'.IsRemoved p := ⟨hremoved.1, h.cwd.trans hremoved.2.1, hremoved.2.2⟩
    rw [node_of_isRemoved hremoved] at hnode
    obtain rfl := Except.ok.inj hnode
    exact ⟨_, node_of_isRemoved hremoved', .refl _⟩
  · obtain ⟨names, hplace, hroot⟩ := (node_eq_ok_iff hremoved).mp hnode
    obtain ⟨n', hroot', hkept⟩ := h.kept names n hroot
    exact ⟨n', node_of_place (h.place hplace) hroot', hkept⟩

theorem exists? (h : Grows d d') (hexists : d.exists? p = .ok true) : d'.exists? p = .ok true := by
  obtain ⟨hnull, n, hnode⟩ := exists?_eq_true_iff.mp hexists
  obtain ⟨n', hnode', -⟩ := h.node hnode
  exact exists?_eq_true_iff.mpr ⟨hnull, n', hnode'⟩

end Grows

/-! ### A new file -/

/-- The disk `d'` has one file more than `d`, and the path leads to it. -/
structure Gains (d d' : Disk) (p : Path) (content : List UInt8) : Prop where
  enforced : d'.enforced = d.enforced
  cwd : d'.cwd = d.cwd
  atPlace : ∃ place, d'.place p = .ok place ∧ d.root.get? place = none ∧
    d'.root.get? place = some (.file .file content) ∧
    ∀ names, names ≠ place → Option.Rel Kept (d.root.get? names) (d'.root.get? names)

section Gains

variable {d d' : Disk} {p : Path} {content : List UInt8}

theorem Gains.grows (h : Gains d d' p content) : Grows d d' where
  enforced := h.enforced
  cwd := h.cwd
  kept names n hn := by
    obtain ⟨place, -, hnew, -, hothers⟩ := h.atPlace
    have hne : names ≠ place := by
      rintro rfl
      rw [hnew] at hn
      cases hn
    have hrel := hothers names hne
    rw [hn] at hrel
    generalize d'.root.get? names = o at hrel
    cases hrel with
    | some hkept => exact ⟨_, rfl, hkept⟩

theorem Gains.node (h : Gains d d' p content) : d'.node p = .ok (.file .file content) := by
  obtain ⟨place, hplace, -, hfile, -⟩ := h.atPlace
  exact node_of_place hplace hfile

end Gains

end Restyle.Disk

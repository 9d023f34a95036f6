-- SUMMARY: Frame laws of file systems: what an operation changes, and where paths lead after it.
import MachineAtlas.Files.System
import MachineAtlas.Proofs.Json.Codec
/-!
# What operations on files change

Putting a node into place changes one location. Opening and writing a file changes its content and
nothing else, and no path that led somewhere leads elsewhere after it.
-/
namespace MachineAtlas.FileSystem

open Json (bind_eq_ok)

/-! ## One location -/

theorem lookup_cons_eq (k m : Location) (n : Node) (nodes : List (Location × Node)) :
    ((m, n) :: nodes).lookup k = if k = m then some n else nodes.lookup k := by
  by_cases h : k = m
  · simp [h]
  · simp [List.lookup_cons, beq_false_of_ne h, h]

theorem lookup_replace (l k : Location) (n : Node) (nodes : List (Location × Node)) :
    (nodes.map fun e => if e.1 == l then (l, n) else e).lookup k =
      if k = l then (nodes.lookup l).map fun _ => n else nodes.lookup k := by
  induction nodes with
  | nil => simp
  | cons e nodes ih =>
      obtain ⟨m, v⟩ := e
      rw [List.map_cons, lookup_cons_eq l, lookup_cons_eq k m]
      by_cases hm : m = l
      · subst hm
        rw [if_pos (beq_self_eq_true _), lookup_cons_eq, ih]
        by_cases hk : k = m <;> simp [hk]
      · rw [if_neg (by simpa using hm), lookup_cons_eq, ih]
        by_cases hk : k = l
        · subst hk
          simp [Ne.symm hm]
        · simp [hk]

theorem lookup_set (fs : FileSystem) (l k : Location) (n : Node) :
    (fs.set l n).nodes.lookup k = if k = l then some n else fs.nodes.lookup k := by
  simp only [set]
  split
  · rename_i hsome
    obtain ⟨v, hv⟩ := Option.isSome_iff_exists.1 hsome
    rw [lookup_replace, hv]
    rfl
  · rename_i hnone
    rw [Option.not_isSome_iff_eq_none] at hnone
    rw [List.lookup_append, lookup_cons_eq]
    by_cases hk : k = l
    · simp [hk, hnone]
    · simp [hk]

@[simp] theorem node?_set_self (fs : FileSystem) {l : Location} (h : l ≠ []) (n : Node) :
    (fs.set l n).node? l = some n := by
  simp [node?, h, lookup_set]

@[simp] theorem node?_set_of_ne (fs : FileSystem) {l k : Location} (h : k ≠ l) (n : Node) :
    (fs.set l n).node? k = fs.node? k := by
  simp [node?, h, lookup_set]

theorem ne_nil_of_node? {fs : FileSystem} {l : Location} (h : fs.node? l ≠ some .directory) :
    l ≠ [] := by
  rintro rfl
  exact h rfl

/-! ## Frames -/

/-- Directories and devices are fixed: writing neither makes nor changes them. -/
def Node.isFixed : Node → Bool
  | .file _ => false
  | _ => true

/-- Devices can be opened to write, which directories cannot. -/
def Node.isDevice : Node → Bool
  | .void => true
  | .full => true
  | _ => false

theorem Node.isFixed_of_isDevice {n : Node} (h : n.isDevice = true) : n.isFixed = true := by
  cases n with
  | file content => cases h
  | directory => rfl
  | void => rfl
  | full => rfl

theorem ne_fixed {fs : FileSystem} {l : Location}
    (h : fs.node? l = none ∨ ∃ content, fs.node? l = some (.file content)) (n : Node)
    (hn : n.isFixed = true) : fs.node? l ≠ some n := by
  intro hnode
  rcases h with hnone | ⟨content, hfile⟩
  · rw [hnode] at hnone
    cases hnone
  · rw [hnode] at hfile
    cases hfile
    cases hn

/-- Nothing has changed but what is at `l`, and that is a directory or a device only if it was the
same one before. -/
structure SameBut (l : Location) (fs fs' : FileSystem) : Prop where
  workingDirectory : fs'.workingDirectory = fs.workingDirectory
  node? : ∀ k, k ≠ l → fs'.node? k = fs.node? k
  fixed : ∀ n : Node, n.isFixed = true → (fs'.node? l = some n ↔ fs.node? l = some n)

namespace SameBut

variable {l : Location} {fs fs' fs'' : FileSystem}

protected theorem refl (l : Location) (fs : FileSystem) : SameBut l fs fs :=
  ⟨rfl, fun _ _ => rfl, fun _ _ => .rfl⟩

protected theorem trans (h : SameBut l fs fs') (h' : SameBut l fs' fs'') : SameBut l fs fs'' where
  workingDirectory := h'.workingDirectory.trans h.workingDirectory
  node? k hk := (h'.node? k hk).trans (h.node? k hk)
  fixed n hn := (h'.fixed n hn).trans (h.fixed n hn)

/-- A file may be put in place of a file, or where nothing is. -/
theorem set (hnode : fs.node? l = none ∨ ∃ content, fs.node? l = some (.file content))
    (content : Bytes) : SameBut l fs (fs.set l (.file content)) where
  workingDirectory := rfl
  node? _ hk := node?_set_of_ne fs hk _
  fixed n hn := by
    have hfixed := ne_fixed hnode
    rw [node?_set_self fs (ne_nil_of_node? (hfixed .directory rfl))]
    constructor
    · rintro ⟨⟩
      cases hn
    · intro h
      exact absurd h (hfixed n hn)

end SameBut

/-! ## Paths -/

/-- The directories are the same, and so are the devices in them. -/
structure SameDirectories (fs fs' : FileSystem) : Prop where
  workingDirectory : fs'.workingDirectory = fs.workingDirectory
  fixed : ∀ (l : Location) (n : Node), n.isFixed = true →
    (fs'.node? l = some n ↔ fs.node? l = some n)

theorem SameBut.sameDirectories {l : Location} {fs fs' : FileSystem} (h : SameBut l fs fs') :
    SameDirectories fs fs' where
  workingDirectory := h.workingDirectory
  fixed k n hn := by
    by_cases hkl : k = l
    · subst hkl
      exact h.fixed n hn
    · rw [h.node? k hkl]

namespace SameDirectories

variable {fs fs' : FileSystem}

protected theorem trans {fs'' : FileSystem} (h : SameDirectories fs fs')
    (h' : SameDirectories fs' fs'') : SameDirectories fs fs'' :=
  ⟨h'.workingDirectory.trans h.workingDirectory,
    fun l n hn => (h'.fixed l n hn).trans (h.fixed l n hn)⟩

protected theorem refl (fs : FileSystem) : SameDirectories fs fs := ⟨rfl, fun _ _ _ => .rfl⟩

protected theorem symm (h : SameDirectories fs fs') : SameDirectories fs' fs :=
  ⟨h.workingDirectory.symm, fun l n hn => (h.fixed l n hn).symm⟩

theorem enter_eq_ok (h : SameDirectories fs fs') {l k : Location} {name : String}
    (henter : fs.enter l name = .ok k) : fs'.enter l name = .ok k := by
  simp only [enter] at henter
  split at henter
  · rename_i hnode
    rw [enter, (h.fixed l .directory rfl).2 hnode]
    exact henter
  · cases henter
  · cases henter

theorem walk_eq_ok (h : SameDirectories fs fs') (names : List String) {l k : Location}
    (hwalk : fs.walk l names = .ok k) : fs'.walk l names = .ok k := by
  induction names generalizing l with
  | nil => exact hwalk
  | cons name names ih =>
      obtain ⟨m, henter, hrest⟩ := bind_eq_ok.1 hwalk
      exact bind_eq_ok.2 ⟨m, h.enter_eq_ok henter, ih hrest⟩

/-- A path that leads somewhere goes on to lead there. -/
theorem locate_eq_ok (h : SameDirectories fs fs') {path : String} {l : Location}
    (hlocate : fs.locate path = .ok l) : fs'.locate path = .ok l := by
  have hhome : fs'.home = fs.home := by rw [home, home, h.workingDirectory]
  unfold locate at hlocate ⊢
  rw [hhome]
  -- The three conditions ask about the path alone.
  split at hlocate
  · cases hlocate
  rw [if_neg (by assumption)]
  split at hlocate
  · cases hlocate
  rw [if_neg (by assumption)]
  split at hlocate
  · cases hlocate
  rw [if_neg (by assumption)]
  exact h.walk_eq_ok _ hlocate

end SameDirectories

/-- An ordinary file is found by a path that leads to it and has no separator at its end. -/
theorem find_file {fs : FileSystem} {path : String} {l : Location} {content : Bytes}
    (h : fs.find path = .ok (l, .file content)) :
    fs.locate path = .ok l ∧ endsInSeparator path = false ∧
      fs.node? l = some (.file content) := by
  obtain ⟨k, hlocate, hfound⟩ := bind_eq_ok.1 h
  split at hfound
  · cases hfound
  · cases hfound
  · rename_i n _ hnode
    cases hsep : endsInSeparator path with
    | true =>
        simp only [hsep, if_true] at hfound
        cases hfound
    | false =>
        simp only [hsep, Bool.false_eq_true, if_false] at hfound
        cases hfound
        exact ⟨hlocate, rfl, hnode⟩

/-- What is at `l` has not changed, and every path that led there still does. -/
structure Spares (l : Location) (fs fs' : FileSystem) : Prop extends SameDirectories fs fs' where
  node? : fs'.node? l = fs.node? l

namespace Spares

variable {l k : Location} {fs fs' fs'' : FileSystem}

protected theorem refl (l : Location) (fs : FileSystem) : Spares l fs fs :=
  ⟨SameDirectories.refl fs, rfl⟩

protected theorem trans (h : Spares l fs fs') (h' : Spares l fs' fs'') : Spares l fs fs'' :=
  ⟨h.toSameDirectories.trans h'.toSameDirectories, h'.node?.trans h.node?⟩

theorem of_sameBut (h : SameBut k fs fs') (hne : l ≠ k) : Spares l fs fs' :=
  ⟨h.sameDirectories, h.node? l hne⟩

end Spares

/-! ## Opening -/

/-- The path leads to an ordinary file, or to a place where one can be made. -/
structure Writable (fs : FileSystem) (path : String) (l : Location) : Prop where
  locate_eq : fs.locate path = .ok l
  isName : endsInSeparator path = false
  node : fs.node? l = none ∨ ∃ content, fs.node? l = some (.file content)

namespace Writable

variable {fs : FileSystem} {path : String} {l : Location}

theorem ne_nil (h : Writable fs path l) : l ≠ [] :=
  ne_nil_of_node? (ne_fixed h.node .directory rfl)

/-- The path leads nowhere else. -/
theorem ne_of_locate {k m : Location} (h : Writable fs path l) (hne : l ≠ k)
    (hlocate : fs.locate path = .ok m) : m ≠ k := by
  rw [h.locate_eq] at hlocate
  cases hlocate
  exact hne

/-- Whatever the file held before, it is empty once it is opened. -/
theorem create_eq (h : Writable fs path l) :
    fs.create path = .ok (fs.set l (.file []), ⟨l, 0⟩) := by
  simp only [create, h.locate_eq, h.isName]
  rcases h.node with hnode | ⟨content, hnode⟩
  · simp only [bind, Except.bind, hnode]
    rfl
  · simp only [bind, Except.bind, hnode]
    rfl

/-- Writing takes no place away where a file can be. -/
theorem of_sameDirectories {fs' : FileSystem} (h : Writable fs path l)
    (hsame : SameDirectories fs fs') : Writable fs' path l where
  locate_eq := hsame.locate_eq_ok h.locate_eq
  isName := h.isName
  node := by
    have hfixed (n : Node) (hn : n.isFixed = true) : fs'.node? l ≠ some n :=
      mt (hsame.fixed l n hn).1 (ne_fixed h.node n hn)
    rcases hnode : fs'.node? l with _ | node
    · exact .inl rfl
    cases node with
    | file content => exact .inr ⟨content, rfl⟩
    | directory => exact absurd hnode (hfixed .directory rfl)
    | void => exact absurd hnode (hfixed .void rfl)
    | full => exact absurd hnode (hfixed .full rfl)

/-- A file that is found can be written. -/
theorem of_find {content : Bytes} (h : fs.find path = .ok (l, .file content)) :
    Writable fs path l := by
  obtain ⟨hlocate, hname, hnode⟩ := find_file h
  exact ⟨hlocate, hname, .inr ⟨content, hnode⟩⟩

/-- A file that has been written is read by the path that it was made by. -/
theorem readBytes_eq {fs' : FileSystem} {content : Bytes} (h : Writable fs path l)
    (hsame : SameDirectories fs fs') (hnode : fs'.node? l = some (.file content)) :
    fs'.readBytes path = .ok content := by
  have hlocate := hsame.locate_eq_ok h.locate_eq
  simp only [readBytes, find, hlocate, hnode, h.isName, bind, Except.bind]
  rfl

end Writable

/-- A file that has been spared is read as before. -/
theorem readBytes_of_spares {fs fs' : FileSystem} {path : String} {l : Location} {content : Bytes}
    (hfind : fs.find path = .ok (l, .file content)) (hspares : Spares l fs fs') :
    fs'.readBytes path = .ok content := by
  obtain ⟨-, -, hnode⟩ := find_file hfind
  have hafter : fs'.node? l = some (.file content) := hspares.node?.trans hnode
  exact (Writable.of_find hfind).readBytes_eq hspares.toSameDirectories hafter

/-- Opening to write starts with an empty file, or with a device that stays as it is. -/
theorem create_cases {fs fs' : FileSystem} {path : String} {h : Handle}
    (hcreate : fs.create path = .ok (fs', h)) :
    fs.locate path = .ok h.location ∧ h.position = 0 ∧
      (Writable fs path h.location ∧ fs' = fs.set h.location (.file []) ∨
        (∃ n : Node, n.isDevice = true ∧ fs.node? h.location = some n) ∧ fs' = fs) := by
  obtain ⟨l, hlocate, hopen⟩ := bind_eq_ok.1 hcreate
  cases hsep : endsInSeparator path with
  | true =>
      simp only [hsep, if_true] at hopen
      split at hopen <;> cases hopen
  | false =>
      simp only [hsep, Bool.false_eq_true, if_false] at hopen
      split at hopen
      · cases hopen
      all_goals
        rename_i hnode
        cases hopen
        refine ⟨hlocate, rfl, ?_⟩
      · exact .inl ⟨⟨hlocate, hsep, .inr ⟨_, hnode⟩⟩, rfl⟩
      · exact .inr ⟨⟨.void, rfl, hnode⟩, rfl⟩
      · exact .inr ⟨⟨.full, rfl, hnode⟩, rfl⟩
      · exact .inl ⟨⟨hlocate, hsep, .inl hnode⟩, rfl⟩

/-- Opening a file to write changes what its path leads to, and nothing else. -/
theorem sameBut_of_create {fs fs' : FileSystem} {path : String} {h : Handle}
    (hcreate : fs.create path = .ok (fs', h)) :
    fs.locate path = .ok h.location ∧ SameBut h.location fs fs' := by
  obtain ⟨hlocate, -, ⟨hwritable, rfl⟩ | ⟨-, rfl⟩⟩ := create_cases hcreate
  · exact ⟨hlocate, SameBut.set hwritable.node []⟩
  · exact ⟨hlocate, SameBut.refl _ _⟩

/-- A file that is opened to write is empty from then on. -/
theorem empty_of_create {fs fs' : FileSystem} {path : String} {h : Handle} {content : Bytes}
    (hcreate : fs.create path = .ok (fs', h)) (hnode : fs.node? h.location = some (.file content)) :
    fs'.node? h.location = some (.file []) := by
  obtain ⟨-, -, ⟨hwritable, rfl⟩ | ⟨⟨n, hn, hdevice⟩, -⟩⟩ := create_cases hcreate
  · exact node?_set_self fs hwritable.ne_nil _
  · exact absurd hdevice (ne_fixed (.inr ⟨content, hnode⟩) n (n.isFixed_of_isDevice hn))

/-- A file can be opened to write unless its path leads nowhere or to a directory. -/
theorem isOk_create_iff {fs : FileSystem} {path : String} : (fs.create path).isOk = true ↔
    ∃ l, fs.locate path = .ok l ∧ endsInSeparator path = false ∧
      fs.node? l ≠ some .directory := by
  unfold create
  cases hlocate : fs.locate path with
  | error io => exact ⟨fun h => (by cases h), fun ⟨_, h, _⟩ => by cases h⟩
  | ok l =>
      cases hname : endsInSeparator path with
      | true => exact ⟨fun h => (by cases h), fun ⟨_, _, h, _⟩ => by cases h⟩
      | false =>
          simp only [bind, Except.bind, Except.ok.injEq, exists_eq_left', true_and]
          rcases fs.node? l with _ | node
          · exact ⟨fun _ h => (by cases h), fun _ => rfl⟩
          cases node with
          | directory => exact ⟨fun h => (by cases h), fun h => absurd rfl h⟩
          | file content => exact ⟨fun _ h => (by cases h), fun _ => rfl⟩
          | void => exact ⟨fun _ h => (by cases h), fun _ => rfl⟩
          | full => exact ⟨fun _ h => (by cases h), fun _ => rfl⟩

/-- What can be opened can still be opened after writing, and what cannot be still cannot. -/
theorem SameDirectories.isOk_create {fs fs' : FileSystem} (h : SameDirectories fs fs')
    (path : String) : (fs'.create path).isOk = (fs.create path).isOk := by
  have hkeeps {fs fs' : FileSystem} (h : SameDirectories fs fs')
      (hok : (fs.create path).isOk = true) : (fs'.create path).isOk = true := by
    obtain ⟨l, hlocate, hname, hnode⟩ := isOk_create_iff.1 hok
    exact isOk_create_iff.2
      ⟨l, h.locate_eq_ok hlocate, hname, mt (h.fixed l .directory rfl).1 hnode⟩
  exact Bool.eq_iff_iff.2 ⟨hkeeps h.symm, hkeeps h⟩

/-! ## Writing -/

@[simp] theorem overlay_end (content data : Bytes) :
    overlay content content.length data = content ++ data := by
  simp [overlay]

/-- Writing at the end of a file appends to it. -/
theorem put_end {fs : FileSystem} {h : Handle} {content : Bytes}
    (hnode : fs.node? h.location = some (.file content)) (hend : h.position = content.length)
    (data : Bytes) :
    put data (fs, h) = .ok (fs.set h.location (.file (content ++ data)),
      ⟨h.location, (content ++ data).length⟩) := by
  simp [put, hnode, hend]

theorem sameBut_of_put {data : Bytes} {fs fs' : FileSystem} {h h' : Handle}
    (hput : put data (fs, h) = .ok (fs', h')) :
    h'.location = h.location ∧ SameBut h.location fs fs' := by
  simp only [put] at hput
  split at hput
  · rename_i hnode
    cases hput
    exact ⟨rfl, SameBut.set (.inr ⟨_, hnode⟩) _⟩
  · cases hput
    exact ⟨rfl, SameBut.refl _ _⟩
  · split at hput
    · cases hput
      exact ⟨rfl, SameBut.refl _ _⟩
    · cases hput
  · cases hput
  · cases hput

end MachineAtlas.FileSystem

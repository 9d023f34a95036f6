-- SUMMARY: The stem of a path, said of the parts between its separators.
import Mathlib.Data.List.TakeWhile
import MachineAtlas.Record.Assembly
/-!
# Stems of paths

What the stem of a path is, said of the parts between its separators. A stem leaves out the
directories of a path and one extension, and nothing else. The summary of a module has the stems of
both its names.
-/
namespace MachineAtlas

namespace Path

variable {path name before after s : List Char}

/-! ## The law of stems -/

/-- A part counts unless it is empty, or stands for its own directory and not at the front. -/
def counts : List Char × Nat → Bool
  | (part, position) => part != [] && (part != ['.'] || position == 0)

/-- The parts between the separators of a path that count. -/
def countedParts (path : List Char) : List (List Char) :=
  ((path.splitOn '/').zipIdx.filter counts).map Prod.fst

/-- The last part that counts is a name, and stands neither for its own directory nor for the one
above. -/
structure EndsIn (path name : List Char) : Prop where
  last : (countedParts path).getLast? = some name
  ne_here : name ≠ ['.']
  ne_above : name ≠ ['.', '.']

/-- The stem of a path is the name that it ends in up to the last dot of that name, where a dot in
front is none. A path that ends in no name has an empty stem. -/
inductive IsStem (path : List Char) : List Char → Prop where
  | empty (last : (countedParts path).getLast? = none) : IsStem path []
  | here (last : (countedParts path).getLast? = some ['.']) : IsStem path []
  | above (last : (countedParts path).getLast? = some ['.', '.']) : IsStem path []
  | whole {name : List Char} (ends : EndsIn path name) (dotless : '.' ∉ name.tail) :
      IsStem path name
  | cut {before after : List Char} (ends : EndsIn path (before ++ '.' :: after))
      (dotted : '.' ∈ (before ++ '.' :: after).tail) (dotless : '.' ∉ after) :
      IsStem path before

/-- The path leads through any directories to the base with an extension, which may be empty, and
ends in any number of separators. -/
inductive Extended (base : String) : String → Prop where
  | intro {directory extension : String} {n : Nat}
      (directory_ends : directory = "" ∨ ∃ d, directory = d ++ "/")
      (base_ne : base ≠ "") (base_separator : '/' ∉ base.toList)
      (extension_separator : '/' ∉ extension.toList) (extension_dot : '.' ∉ extension.toList)
      (ne_above : base ++ "." ++ extension ≠ "..") :
      Extended base
        (directory ++ base ++ "." ++ extension ++ String.ofList (List.replicate n '/'))

/-- The second text is the one stem of the first. It is the base if the path is one of a base with
an extension, and there is no directory in it. -/
structure Stemmed (path stem : String) : Prop where
  isStem_iff (s : String) : IsStem path.toList s.toList ↔ s = stem
  of_extended {base : String} : Extended base path → stem = base
  separator_notMem : '/' ∉ stem.toList

/-! ## Parts -/

theorem segments_eq (path : List Char) : segments path = path.splitOn '/' := by
  induction path with
  | nil => rfl
  | cons c cs ih =>
      rw [segments, List.splitOn_cons_eq_if_modifyHead, ih]
      by_cases hc : c = '/'
      · rw [if_pos hc, if_pos (by simpa using hc)]
      · rw [if_neg hc, if_neg (by simpa using hc)]
        obtain ⟨s, rest, hsplit⟩ := List.exists_cons_of_ne_nil (List.splitOn_ne_nil '/' cs)
        rw [hsplit, List.modifyHead_cons]

theorem separator_notMem_splitOn (h : s ∈ path.splitOn '/') : '/' ∉ s := by
  induction path generalizing s with
  | nil =>
      obtain rfl : s = [] := by simpa using h
      exact List.not_mem_nil
  | cons c cs ih =>
      obtain ⟨first, rest, hsplit⟩ := List.exists_cons_of_ne_nil (List.splitOn_ne_nil '/' cs)
      rw [List.splitOn_cons_eq_if_modifyHead, hsplit, List.modifyHead_cons] at h
      rw [hsplit] at ih
      split at h
      · rcases List.mem_cons.1 h with rfl | h
        · exact List.not_mem_nil
        · exact ih h
      · rename_i hc
        rcases List.mem_cons.1 h with rfl | h
        · rw [List.mem_cons, not_or]
          exact ⟨fun hslash => hc (by simp [← hslash]), ih List.mem_cons_self⟩
        · exact ih (List.mem_cons_of_mem first h)

/-- Behind the front, the position of a part has no part in whether it counts. -/
theorem map_filter_counts (parts : List (List Char)) {k : Nat} (hk : 0 < k) :
    ((parts.zipIdx k).filter counts).map Prod.fst =
      parts.filter fun s => ! s.isEmpty && s != ['.'] := by
  have hcounts : ∀ p ∈ parts.zipIdx k,
      counts p = ((fun s : List Char => ! s.isEmpty && s != ['.']) ∘ Prod.fst) p := by
    rintro ⟨part, position⟩ hmem
    have hposition : (position == 0) = false := by
      have hle := List.le_snd_of_mem_zipIdx hmem
      simp only [beq_eq_false_iff_ne]
      omega
    cases part <;> simp [counts, hposition]
  rw [List.filter_congr hcounts, ← List.filter_map, List.zipIdx_map_fst]

theorem parts_eq (path : List Char) : parts path = countedParts path := by
  -- Only the first part can count for standing at the front.
  obtain ⟨first, rest, hsplit⟩ := List.exists_cons_of_ne_nil (List.splitOn_ne_nil '/' path)
  unfold parts countedParts
  rw [segments_eq, hsplit, List.zipIdx_cons]
  split
  · rename_i hfirst
    obtain ⟨rfl, rfl⟩ := List.cons.inj hfirst
    rw [List.filter_cons_of_pos rfl, List.map_cons, map_filter_counts _ (Nat.succ_pos 0)]
  · rename_i hfirst
    have hdot : first ≠ ['.'] := fun h => hfirst rest (by rw [h])
    rw [List.filter_cons, List.filter_cons]
    cases first with
    | nil => exact (map_filter_counts _ (Nat.succ_pos 0)).symm
    | cons c cs =>
        have hcounts : counts (c :: cs, 0) = true := by simp [counts]
        rw [if_pos (by simpa using hdot), if_pos hcounts, List.map_cons,
          map_filter_counts _ (Nat.succ_pos 0)]

theorem separator_notMem_countedParts (h : s ∈ countedParts path) : '/' ∉ s := by
  obtain ⟨p, hp, rfl⟩ := List.mem_map.1 h
  have hmem : p.1 ∈ (path.splitOn '/').zipIdx.map Prod.fst :=
    List.mem_map_of_mem (List.mem_filter.1 hp).1
  rw [List.zipIdx_map_fst] at hmem
  exact separator_notMem_splitOn hmem

/-- Separators behind a name lead nowhere. -/
theorem splitOn_name (h : '/' ∉ name) (n : Nat) :
    (name ++ List.replicate n '/').splitOn '/' = name :: List.replicate n [] := by
  induction n with
  | zero =>
      rw [List.replicate_zero, List.replicate_zero, List.append_nil, List.splitOn_eq_singleton h]
  | succ n ih =>
      rw [List.replicate_succ', ← List.append_assoc, List.splitOn_append_cons_self, ih,
        List.splitOn_nil, List.cons_append, ← List.replicate_succ']

/-- Directories in front of a path leave the parts behind them as they are, as they end in a
separator. -/
theorem splitOn_directory {directory : String} (h : directory = "" ∨ ∃ d, directory = d ++ "/")
    (rest : List Char) :
    ∃ front, (directory.toList ++ rest).splitOn '/' = front ++ rest.splitOn '/' := by
  rcases h with rfl | ⟨d, rfl⟩
  · exact ⟨[], rfl⟩
  · refine ⟨d.toList.splitOn '/', ?_⟩
    have hslash : (d ++ "/").toList ++ rest = d.toList ++ '/' :: rest := by
      rw [String.toList_append, List.append_assoc]
      rfl
    rw [hslash, List.splitOn_append_cons_self]

theorem getLast?_countedParts {front : List (List Char)} {n : Nat}
    (hsplit : path.splitOn '/' = front ++ name :: List.replicate n []) (hne : name ≠ [])
    (hdot : name ≠ ['.']) : (countedParts path).getLast? = some name := by
  have hname : ∀ k, counts (name, k) = true := by simp [counts, hne, hdot]
  have hempty : ∀ k, ((List.replicate n ([] : List Char)).zipIdx k).filter counts = [] := by
    intro k
    rw [List.filter_eq_nil_iff]
    intro p hp
    have hmem : p.1 ∈ List.replicate n [] := by
      rw [← List.zipIdx_map_fst k (List.replicate n [])]
      exact List.mem_map_of_mem hp
    simp [counts, List.eq_of_mem_replicate hmem]
  rw [countedParts, hsplit, List.zipIdx_append, List.zipIdx_cons, List.filter_append,
    List.filter_cons_of_pos (hname _), hempty, List.map_append]
  exact List.getLast?_concat

/-! ## Names -/

theorem fileName_eq_some_iff : fileName path = some name ↔ EndsIn path name := by
  unfold fileName
  rw [parts_eq]
  constructor
  · intro h
    split at h
    · cases h
    · rename_i last hlast
      split at h
      · cases h
      · rename_i hname
        obtain rfl : last = name := Option.some.inj h
        rw [not_or] at hname
        exact ⟨hlast, hname.1, hname.2⟩
  · rintro ⟨hlast, hhere, habove⟩
    rw [hlast]
    exact if_neg (not_or.2 ⟨hhere, habove⟩)

theorem fileName_eq_none
    (h : ∀ name ∈ (countedParts path).getLast?, name = ['.'] ∨ name = ['.', '.']) :
    fileName path = none := by
  rw [Option.eq_none_iff_forall_ne_some]
  intro name hname
  obtain ⟨hlast, hhere, habove⟩ := fileName_eq_some_iff.1 hname
  exact (h name hlast).elim hhere habove

theorem ne_dot_of_mem_reverse (h : '.' ∉ name) : ∀ c ∈ name.reverse, (c != '.') = true := by
  intro c hc
  rw [bne_iff_ne]
  rintro rfl
  exact h (List.mem_reverse.1 hc)

/-- From its end, a name is read up to the last dot. -/
theorem reverse_cut (before : List Char) (hlast : '.' ∉ after) :
    (before ++ '.' :: after).reverse.takeWhile (· != '.') = after.reverse ∧
      (before ++ '.' :: after).reverse.dropWhile (· != '.') = '.' :: before.reverse := by
  have hafter := ne_dot_of_mem_reverse hlast
  rw [List.reverse_append, List.reverse_cons, List.append_assoc, List.singleton_append,
    List.takeWhile_append_of_pos hafter, List.dropWhile_append_of_pos hafter]
  exact ⟨List.append_nil _, rfl⟩

theorem splitName_whole (h : '.' ∉ name.tail) : splitName name = (name, none) := by
  have hdrop : name.reverse.dropWhile (· != '.') = [] ∨
      name.reverse.dropWhile (· != '.') = ['.'] := by
    -- Read from the end, the name stops at a dot in front or not at all.
    by_cases hdot : '.' ∈ name
    · right
      cases name with
      | nil => cases hdot
      | cons c cs =>
          obtain rfl : c = '.' := ((List.mem_cons.1 hdot).resolve_right h).symm
          exact (reverse_cut [] h).2
    · left
      exact List.dropWhile_eq_nil_iff.2 (ne_dot_of_mem_reverse hdot)
  unfold splitName
  rcases hdrop with hdrop | hdrop <;> rw [hdrop]

theorem splitName_cut (hdotted : '.' ∈ (before ++ '.' :: after).tail) (hlast : '.' ∉ after) :
    splitName (before ++ '.' :: after) = (before, some after) := by
  have hbefore : before.reverse ≠ [] := by
    rw [Ne, List.reverse_eq_nil_iff]
    rintro rfl
    exact hlast hdotted
  obtain ⟨c, cs, hcs⟩ := List.exists_cons_of_ne_nil hbefore
  obtain ⟨htake, hdrop⟩ := reverse_cut before hlast
  unfold splitName
  rw [htake, hdrop, hcs]
  change ((c :: cs).reverse, some after.reverse.reverse) = (before, some after)
  rw [← hcs, List.reverse_reverse, List.reverse_reverse]

theorem exists_cut (h : '.' ∈ name) :
    ∃ before after, name = before ++ '.' :: after ∧ '.' ∉ after := by
  obtain ⟨after, before, hreverse, hlast⟩ := List.eq_append_cons_of_mem (List.mem_reverse.2 h)
  refine ⟨before.reverse, after.reverse, ?_, mt List.mem_reverse.1 hlast⟩
  rw [← List.reverse_inj, hreverse]
  simp

/-! ## Stems -/

/-- Every path has a stem, whatever it is made of. -/
theorem exists_isStem (path : List Char) : ∃ s, IsStem path s := by
  cases hlast : (countedParts path).getLast? with
  | none => exact ⟨[], .empty hlast⟩
  | some name =>
      by_cases hhere : name = ['.']
      · exact ⟨[], .here (hhere ▸ hlast)⟩
      by_cases habove : name = ['.', '.']
      · exact ⟨[], .above (habove ▸ hlast)⟩
      have hends : EndsIn path name := ⟨hlast, hhere, habove⟩
      by_cases hdot : '.' ∈ name.tail
      · obtain ⟨before, after, rfl, hafter⟩ := exists_cut (List.mem_of_mem_tail hdot)
        exact ⟨before, .cut hends hdot hafter⟩
      · exact ⟨name, .whole hends hdot⟩

theorem stem_of_endsIn {p : String} (h : EndsIn p.toList name) :
    stem p = String.ofList (splitName name).1 := by
  rw [stem, fileName_eq_some_iff.2 h]

theorem stem_of_nameless {p : String}
    (h : ∀ name ∈ (countedParts p.toList).getLast?, name = ['.'] ∨ name = ['.', '.']) :
    stem p = "" := by
  rw [stem, fileName_eq_none h]

/-- There is no other stem than the one that is read off the path. -/
theorem stem_eq {p : String} (h : IsStem p.toList s) : stem p = String.ofList s := by
  cases h with
  | empty last => exact stem_of_nameless (by simp [last])
  | here last => exact stem_of_nameless (by simp [last])
  | above last => exact stem_of_nameless (by simp [last])
  | whole ends dotless => rw [stem_of_endsIn ends, splitName_whole dotless]
  | cut ends dotted dotless => rw [stem_of_endsIn ends, splitName_cut dotted dotless]

theorem isStem_iff (p s : String) : IsStem p.toList s.toList ↔ s = stem p := by
  constructor
  · intro h
    rw [stem_eq h, String.ofList_toList]
  · rintro rfl
    obtain ⟨s, hs⟩ := exists_isStem p.toList
    rw [stem_eq hs, String.toList_ofList]
    exact hs

theorem IsStem.separator_notMem (h : IsStem path s) : '/' ∉ s := by
  cases h with
  | empty | here | above => exact List.not_mem_nil
  | whole ends => exact separator_notMem_countedParts (List.mem_of_getLast? ends.last)
  | cut ends =>
      have hname := separator_notMem_countedParts (List.mem_of_getLast? ends.last)
      exact fun hslash => hname (List.mem_append_left _ hslash)

theorem Extended.isStem {base path : String} (h : Extended base path) :
    IsStem path.toList base.toList := by
  obtain @⟨directory, extension, n, hdirectory, hbase, hbaseSlash, hextensionSlash, hdot, habove⟩ :=
    h
  obtain ⟨c, cs, hcs⟩ := List.exists_cons_of_ne_nil (mt String.toList_eq_nil_iff.1 hbase)
  have hslash : '/' ∉ base.toList ++ '.' :: extension.toList := by
    simp [hbaseSlash, hextensionSlash]
  have hpath : (directory ++ base ++ "." ++ extension ++
      String.ofList (List.replicate n '/')).toList =
        directory.toList ++ ((base.toList ++ '.' :: extension.toList) ++ List.replicate n '/') := by
    simp [String.toList_append]
  obtain ⟨front, hfront⟩ := splitOn_directory hdirectory
    ((base.toList ++ '.' :: extension.toList) ++ List.replicate n '/')
  rw [splitOn_name hslash] at hfront
  have hhere : base.toList ++ '.' :: extension.toList ≠ ['.'] := by
    rw [hcs]
    simp
  rw [hpath]
  -- The base has a first character, so the dot behind it is not the first one of the name.
  refine .cut ⟨getLast?_countedParts hfront (by simp) hhere, hhere, ?_⟩ ?_ hdot
  · intro h
    refine habove (String.toList_inj.1 ?_)
    simpa [String.toList_append] using h
  · rw [hcs]
    simp

theorem stemmed_stem (p : String) : Stemmed p (stem p) where
  isStem_iff := isStem_iff p
  of_extended := by
    intro base h
    exact ((isStem_iff p base).1 h.isStem).symm
  separator_notMem := ((isStem_iff p (stem p)).2 rfl).separator_notMem

end Path

namespace OwningModule

/-- The summary of a module has the stems of both its names, whatever these look like. -/
theorem summary_stems (m : OwningModule) :
    Path.Stemmed m.name m.summary.moduleStem ∧ Path.Stemmed m.sourceFile m.summary.sourceStem :=
  ⟨Path.stemmed_stem m.name, Path.stemmed_stem m.sourceFile⟩

/-- A module in a file with two extensions, which is made from a source with none. -/
def hidden : OwningModule where
  name := "./out//foo.tar.gz//"
  sourceFile := "../src/.hidden/."

theorem summary_stems_hidden :
    hidden.summary.moduleStem = "foo.tar" ∧ hidden.summary.sourceStem = ".hidden" := by
  obtain ⟨hmodule, hsource⟩ := summary_stems hidden
  constructor
  · have hname : "./out//" ++ "foo.tar" ++ "." ++ "gz" ++ String.ofList (List.replicate 2 '/') =
        hidden.name := by
      decide
    have hextended : Path.Extended "foo.tar" hidden.name :=
      hname ▸ .intro (.inr ⟨"./out/", by decide⟩) (by decide) (by decide) (by decide) (by decide)
        (by decide)
    exact hmodule.of_extended hextended
  · have hends : Path.EndsIn hidden.sourceFile.toList ".hidden".toList :=
      ⟨by decide, by decide, by decide⟩
    exact ((hsource.isStem_iff ".hidden").1 (.whole hends (by decide))).symm

end OwningModule

end MachineAtlas

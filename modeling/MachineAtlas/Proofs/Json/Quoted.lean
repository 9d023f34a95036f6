-- SUMMARY: Written texts are read back, and no part of one passes for a whole.
import MachineAtlas.Json.Quoted
/-!
# Quoted texts read back

The pieces that a written text is read as, and that they spell the text. A text that is closed is
read the same whatever follows it, so no part of it passes for a whole.
-/
namespace MachineAtlas.Json.Quoted

/-! ## Spellings -/

/-- The character is spelled as itself or by one letter. -/
def isPlain (c : Char) : Bool :=
  0x20 ≤ c.toNat || ['\n', '\r', '\t', '\x08', '\x0c'].contains c

theorem toNat_lt_of_not_isPlain {c : Char} (h : isPlain c = false) : c.toNat < 0x20 := by
  simp only [isPlain, Bool.or_eq_false_iff, decide_eq_false_iff_not] at h
  omega

/-- A character is spelled by a letter, by number or as itself. -/
theorem escape_cases (c : Char) :
    (∃ e, shortEscape e = some c ∧ isPlain c ∧ 0x20 ≤ e.toNat ∧ escape c = ['\\', e]) ∨
    (isPlain c = false ∧
      escape c = ['\\', 'u', '0', '0', hexDigit (c.toNat / 16), hexDigit (c.toNat % 16)]) ∨
    (c ≠ '\"' ∧ c ≠ '\\' ∧ 0x20 ≤ c.toNat ∧ escape c = [c]) := by
  by_cases hletter : c ∈ ['\"', '\\', '\n', '\r', '\t', '\x08', '\x0c']
  · left
    simp only [List.mem_cons, List.not_mem_nil, or_false] at hletter
    rcases hletter with rfl | rfl | rfl | rfl | rfl | rfl | rfl
    · exact ⟨'\"', by decide⟩
    · exact ⟨'\\', by decide⟩
    · exact ⟨'n', by decide⟩
    · exact ⟨'r', by decide⟩
    · exact ⟨'t', by decide⟩
    · exact ⟨'b', by decide⟩
    · exact ⟨'f', by decide⟩
  · right
    simp only [List.mem_cons, List.not_mem_nil, or_false, not_or] at hletter
    by_cases hlow : c.toNat < 0x20
    · left
      simp_all [isPlain, escape]
    · right
      exact ⟨hletter.1, hletter.2.1, by omega, by simp [escape, hletter, hlow]⟩

private theorem hexDigit_toNat : ∀ n, n < 16 → 0x20 ≤ (hexDigit n).toNat := by decide

/-- A text is written without controls. -/
theorem toNat_of_mem_encode {s : List Char} {d : Char} (h : d ∈ encode s) : 0x20 ≤ d.toNat := by
  simp only [encode, List.cons_append, List.mem_cons, List.mem_append, List.mem_flatMap,
    List.not_mem_nil, or_false] at h
  rcases h with rfl | ⟨c, -, hd⟩ | rfl
  · decide
  · rcases escape_cases c with ⟨e, -, -, hlow, hc⟩ | ⟨hplain, hc⟩ | ⟨-, -, hlow, hc⟩
    · simp only [hc, List.mem_cons, List.not_mem_nil, or_false] at hd
      rcases hd with rfl | rfl
      · decide
      · exact hlow
    · have hsmall := toNat_lt_of_not_isPlain hplain
      simp only [hc, List.mem_cons, List.not_mem_nil, or_false] at hd
      rcases hd with rfl | rfl | rfl | rfl | rfl | rfl
      · decide
      · decide
      · decide
      · decide
      · exact hexDigit_toNat _ (by omega)
      · exact hexDigit_toNat _ (by omega)
    · obtain rfl : d = c := by simpa [hc] using hd
      exact hlow
  · decide

/-! ## Grammar -/

/-- The spelling of one piece: a character stands for itself or for another behind a backslash, and
four hexadecimal digits name a unit. -/
inductive SpellsPiece : Piece → List Char → Prop where
  | plain {c : Char} (hmark : c ≠ '\"') (hescape : c ≠ '\\') (hlow : 0x20 ≤ c.toNat) :
      SpellsPiece (.char c) [c]
  | letter {e c : Char} (h : shortEscape e = some c) : SpellsPiece (.char c) ['\\', e]
  | unit {a b c d : Char} {code : Nat} (h : hexUnit a b c d = some code) :
      SpellsPiece (.unit code) ['\\', 'u', a, b, c, d]

/-- The spelling of pieces in a row. -/
inductive Spells : List Piece → List Char → Prop where
  | nil : Spells [] []
  | cons {p : Piece} {ps : List Piece} {cs rest : List Char} (head : SpellsPiece p cs)
      (tail : Spells ps rest) : Spells (p :: ps) (cs ++ rest)

theorem scan_piece {p : Piece} {cs : List Char} (h : SpellsPiece p cs) (rest : List Char) :
    scan (cs ++ rest) = (scan rest).cons p := by
  cases h with
  | @plain c hmark hescape hlow =>
      rw [List.singleton_append, scan.eq_7 c rest hmark (by simp [hescape]) (by simp [hescape])
        (by simp [hescape]) (by simp [hescape]), if_neg (Nat.not_lt.2 hlow)]
  | @letter e c he =>
      have hunit : e ≠ 'u' := by
        rintro rfl
        simp [shortEscape] at he
      simp [scan, hunit, he]
  | unit hunit => simp only [List.cons_append, List.nil_append, scan, hunit]

/-- Pieces are read as spelled, up to the closing mark. -/
theorem scan_of_spells {ps : List Piece} {cs : List Char} (h : Spells ps cs) (rest : List Char) :
    scan (cs ++ '\"' :: rest) = (⟨ps, .closed⟩, some rest) := by
  induction h with
  | nil => simp [scan]
  | cons head tail ih =>
      rw [List.append_assoc, scan_piece head, ih]
      rfl

/-! ## What is written -/

/-- What a written character is read as. -/
def piece (c : Char) : Piece := if isPlain c then .char c else .unit c.toNat

/-- What a written text is read as. -/
def ofChars (s : List Char) : Quoted := ⟨s.map piece, .closed⟩

theorem hexValue_hexDigit : ∀ n, n < 16 → hexValue (hexDigit n) = some n := by decide

/-- The two last of four digits name the unit of a control. -/
theorem hexUnit_control {n : Nat} (h : n < 0x20) :
    hexUnit '0' '0' (hexDigit (n / 16)) (hexDigit (n % 16)) = some n := by
  have hzero : hexValue '0' = some 0 := by decide
  simp only [hexUnit, hzero, hexValue_hexDigit (n / 16) (by omega),
    hexValue_hexDigit (n % 16) (by omega), Option.bind_eq_bind, Option.bind_some, Option.pure_def,
    Option.some.injEq]
  omega

theorem spellsPiece_escape (c : Char) : SpellsPiece (piece c) (escape c) := by
  rcases escape_cases c with ⟨e, he, hplain, -, hc⟩ | ⟨hplain, hc⟩ | ⟨hmark, hescape, hlow, hc⟩
  · rw [hc, piece, if_pos hplain]
    exact .letter he
  · rw [hc, piece, hplain, if_neg (by decide)]
    exact .unit (hexUnit_control (toNat_lt_of_not_isPlain hplain))
  · have hplain : isPlain c = true := by simp [isPlain, hlow]
    rw [hc, piece, if_pos hplain]
    exact .plain hmark hescape hlow

/-- A written text is spelled as its pieces. -/
theorem spells_escapes (s : List Char) : Spells (ofChars s).pieces (s.flatMap escape) := by
  induction s with
  | nil => exact .nil
  | cons c s ih => exact .cons (spellsPiece_escape c) ih

/-! ## The text of pieces -/

theorem not_surrogate_of_lt {n : Nat} (h : n < 0x20) :
    isTrailing n = false ∧ isLeading n = false := by
  simp only [isTrailing, isLeading, decide_eq_false_iff_not]
  omega

/-- The unit of a control spells it, whatever follows. -/
theorem join_unit {n : Nat} (h : n < 0x20) (ps : List Piece) :
    join .closed (.unit n :: ps) = (join .closed ps).map (Char.ofNat n :: ·) := by
  obtain ⟨htrail, hlead⟩ := not_surrogate_of_lt h
  match ps with
  | [] => simp [join, htrail, hlead]
  | .char c :: ps => simp [join, htrail, hlead]
  | .unit m :: ps => simp [join, htrail, hlead]

/-- The pieces of a written text spell it. -/
@[simp] theorem text_ofChars (s : List Char) : (ofChars s).text = .ok s := by
  induction s with
  | nil => rfl
  | cons c s ih =>
      have ih : join .closed (s.map piece) = .ok s := ih
      rw [text, ofChars, List.map_cons]
      cases hplain : isPlain c with
      | true => simp [piece, hplain, join, ih, Except.map]
      | false =>
          rw [piece, hplain, if_neg (by decide), join_unit (toNat_lt_of_not_isPlain hplain), ih,
            Char.ofNat_toNat]
          rfl

/-! ## Texts that are whole -/

/-- Reading goes on after a text exactly if the text is closed. -/
@[simp] theorem isSome_scan (cs : List Char) : (scan cs).2.isSome = (scan cs).1.flaw?.isNone := by
  fun_induction scan cs <;> simp_all [flaw?, Ending.flaw?, Scan.cons, spoil]

/-- A reader that goes on after a piece goes on after the rest. -/
theorem Scan.cons_eq_some {p : Piece} {s : Scan} {q : Quoted} {rest : List Char}
    (h : s.cons p = (q, some rest)) :
    ∃ q', s = (q', some rest) ∧ q = ⟨p :: q'.pieces, q'.ending⟩ := by
  obtain ⟨q', r⟩ := s
  simp only [Scan.cons, Prod.mk.injEq] at h
  exact ⟨q', by rw [h.2], h.1.symm⟩

/-- What follows a closed text does not change how it is read. -/
theorem scan_append {cs rest : List Char} {q : Quoted} (h : scan cs = (q, some rest))
    (more : List Char) : scan (cs ++ more) = (q, some (rest ++ more)) := by
  fun_induction scan cs generalizing q rest with
  | case1 => cases h
  | case2 tail => cases h; simp [scan]
  | case3 a b c d tail code hunit ih =>
      obtain ⟨q', hq, rfl⟩ := Scan.cons_eq_some h
      simp [scan, hunit, ih hq, Scan.cons]
  | case4 => cases h
  | case5 => cases h
  | case6 c tail hunit hnum e he ih =>
      obtain ⟨q', hq, rfl⟩ := Scan.cons_eq_some h
      have hstep := scan_piece (.letter he) (tail ++ more)
      rw [ih hq] at hstep
      exact hstep
  | case7 => cases h
  | case8 => cases h
  | case9 => cases h
  | case10 c tail hmark _ _ hletter hend hlow ih =>
      have hescape : c ≠ '\\' := by
        rintro rfl
        cases tail with
        | nil => exact hend rfl rfl
        | cons e tail => exact hletter e tail rfl rfl
      obtain ⟨q', hq, rfl⟩ := Scan.cons_eq_some h
      have hstep := scan_piece (.plain hmark hescape (Nat.not_lt.1 hlow)) (tail ++ more)
      rw [ih hq] at hstep
      exact hstep

end MachineAtlas.Json.Quoted

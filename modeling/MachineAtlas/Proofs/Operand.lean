-- SUMMARY: When an operand is one token, and that no byte of a name is lost in it.
import Mathlib
import MachineAtlas.Json.Quoted
import MachineAtlas.Operand
import MachineAtlas.Proofs.Text.Bytes
/-!
# Operands as tokens

An operand is a token of the code that it stands in: a word, a number or a quoted text behind its
sigil. No byte of a name is lost in it, so operands tell names apart. A name that starts with the
sigil is taken for an operand as it is, and nothing looks at what follows the sigil there.
-/
namespace MachineAtlas.Operand

variable {sigil : Char} {name : List Char}

/-! ## Tokens -/

def isLetter (c : Char) : Bool := ('a' ≤ c && c ≤ 'z') || ('A' ≤ c && c ≤ 'Z')

def isDigit (c : Char) : Bool := '0' ≤ c && c ≤ '9'

/-- A word starts with a letter or one of four marks. -/
def isWordStart (c : Char) : Bool := isLetter c || ['-', '$', '.', '_'].contains c

/-- A digit of an escape, which has no small letters. -/
def isEscapeDigit (c : Char) : Bool := isDigit c || ('A' ≤ c && c ≤ 'F')

/-- A printable character that stands for itself between quotation marks. -/
def isPlain (c : Char) : Bool := 0x20 ≤ c.toNat && c.toNat ≤ 0x7E && c != '\"' && c != '\\'

/-- What may stand between quotation marks. A backslash starts an escape of two digits. -/
inductive Content : List Char → Prop where
  | nil : Content []
  | plain {c : Char} {rest : List Char} (head : isPlain c = true) (tail : Content rest) :
      Content (c :: rest)
  | escape {high low : Char} {rest : List Char} (hhigh : isEscapeDigit high = true)
      (hlow : isEscapeDigit low = true) (tail : Content rest) :
      Content ('\\' :: high :: low :: rest)

/-- A word, a number or a quoted text behind a sigil. -/
inductive Token (sigil : Char) : List Char → Prop where
  | word {c : Char} {rest : List Char} (head : isWordStart c = true)
      (tail : ∀ d ∈ rest, (isWordStart d || isDigit d) = true) : Token sigil (sigil :: c :: rest)
  | number {digits : List Char} (hne : digits ≠ []) (hdigits : ∀ d ∈ digits, isDigit d = true) :
      Token sigil (sigil :: digits)
  | quoted {content : List Char} (h : Content content) :
      Token sigil (sigil :: '\"' :: (content ++ ['\"']))

theorem isDigit_eq (c : Char) : c.isDigit = isDigit c := by
  rw [Bool.eq_iff_iff]
  simp [Char.isDigit, isDigit, Char.le_def]

theorem isIdentifierStart_eq (c : Char) : isIdentifierStart c = isWordStart c := by
  rw [Bool.eq_iff_iff]
  simp [isIdentifierStart, isWordStart, isLetter, Char.isAlpha, Char.isUpper, Char.isLower,
    Char.le_def, or_assoc, or_left_comm]

theorem isIdentifier_cons_iff {c : Char} {rest : List Char} :
    isIdentifier (c :: rest) = true ↔
      isWordStart c = true ∧ ∀ d ∈ rest, (isWordStart d || isDigit d) = true := by
  simp only [isIdentifier, isIdentifierChar, isIdentifierStart_eq, isDigit_eq, Bool.and_eq_true,
    List.all_eq_true]

theorem isNumeral_iff : isNumeral name = true ↔ name ≠ [] ∧ ∀ d ∈ name, isDigit d = true := by
  simp only [isNumeral, isDigit_eq, Bool.and_eq_true, Bool.not_eq_true', List.isEmpty_eq_false_iff,
    List.all_eq_true]

/-- Words and numbers do not look like quoted texts. -/
theorem head?_ne_mark (h : (isIdentifier name || isNumeral name) = true) :
    name.head? ≠ some '\"' := by
  rintro hmark
  obtain ⟨rest, rfl⟩ := List.head?_eq_some_iff.1 hmark
  rw [Bool.or_eq_true, isIdentifier_cons_iff, isNumeral_iff, List.forall_mem_cons] at h
  rcases h with ⟨hword, -⟩ | ⟨-, hdigit, -⟩
  · exact absurd hword (by decide)
  · exact absurd hdigit (by decide)

/-! ## Quoted texts -/

@[simp] theorem isEscapeDigit_hexDigit : ∀ n < 16, isEscapeDigit (hexDigit n) = true := by decide

@[simp] theorem toNat_ofNat_byte (b : UInt8) : (Char.ofNat b.toNat).toNat = b.toNat := by
  have hbyte := b.toNat_lt
  rw [Char.toNat_ofNat, if_pos (.inl (by omega))]

/-- A byte is quoted by the two digits of its number, or as the printable character that it is. -/
theorem quoteByte_cases (b : UInt8) :
    (∃ high < 16, ∃ low < 16, b = UInt8.ofNat (16 * high + low) ∧
      quoteByte b = ['\\', hexDigit high, hexDigit low]) ∨
    ∃ c, isPlain c = true ∧ String.utf8EncodeChar c = [b] ∧ quoteByte b = [c] := by
  have hbyte := b.toNat_lt
  unfold quoteByte
  split
  · left
    refine ⟨b.toNat / 16, by omega, b.toNat % 16, by omega, ?_, rfl⟩
    rw [Nat.div_add_mod, UInt8.ofNat_toNat]
  · right
    rename_i hplain
    simp only [not_or, ← UInt8.toNat_inj, UInt8.le_iff_toNat_le, UInt8.lt_iff_toNat_lt,
      UInt8.reduceToNat, Nat.not_le, Nat.not_lt] at hplain
    obtain ⟨hmark, hescape, hlow, hhigh⟩ := hplain
    obtain ⟨c, hc⟩ : ∃ c, Char.ofNat b.toNat = c := ⟨_, rfl⟩
    have hcode : c.toNat = b.toNat := hc ▸ toNat_ofNat_byte b
    have hsmall : c.val ≤ 127 := UInt32.le_iff_toNat_le.2 (hcode.trans_le (Nat.le_of_lt hhigh))
    rw [hc]
    refine ⟨c, ?_, ?_, rfl⟩
    · simp only [isPlain, Bool.and_eq_true, decide_eq_true_eq, bne_iff_ne]
      refine ⟨⟨⟨by omega, by omega⟩, ?_⟩, ?_⟩
      · rintro rfl
        exact hmark hcode.symm
      · rintro rfl
        exact hescape hcode.symm
    · rw [String.utf8EncodeChar_eq_singleton (Char.utf8Size_eq_one_iff.2 hsmall),
        List.singleton_inj, ← UInt8.toNat_inj, UInt32.toNat_toUInt8]
      exact (congrArg (· % 2 ^ 8) hcode).trans (Nat.mod_eq_of_lt hbyte)

theorem content_quoteByte (b : UInt8) {rest : List Char} (h : Content rest) :
    Content (quoteByte b ++ rest) := by
  rcases quoteByte_cases b with ⟨high, hhigh, low, hlow, -, hquote⟩ | ⟨c, hc, -, hquote⟩
  · rw [hquote]
    exact .escape (isEscapeDigit_hexDigit high hhigh) (isEscapeDigit_hexDigit low hlow) h
  · rw [hquote]
    exact .plain hc h

theorem content_flatMap (bs : Bytes) : Content (bs.flatMap quoteByte) := by
  induction bs with
  | nil => exact .nil
  | cons b bs ih =>
      rw [List.flatMap_cons]
      exact content_quoteByte b ih

theorem token_quote (sigil : Char) (name : List Char) : Token sigil (sigil :: quote name) :=
  .quoted (content_flatMap _)

/-! ## Rendering -/

/-- A name that starts with the sigil is rendered as it is, a word or a number behind the sigil, and
any other name there between quotation marks. -/
theorem render_cases (sigil : Char) (name : List Char) :
    (name.head? = some sigil ∧ render sigil name = name) ∨
    (name.head? ≠ some sigil ∧ (isIdentifier name || isNumeral name) = true ∧
      render sigil name = sigil :: name) ∨
    (name.head? ≠ some sigil ∧ render sigil name = sigil :: quote name) := by
  unfold render
  split
  · left
    rename_i h
    exact ⟨h, rfl⟩
  · right
    rename_i hsigil
    split
    · left
      rename_i h
      exact ⟨hsigil, h, rfl⟩
    · right
      exact ⟨hsigil, rfl⟩

@[simp] theorem head?_render (sigil : Char) (name : List Char) :
    (render sigil name).head? = some sigil := by
  rcases render_cases sigil name with ⟨hsigil, hrender⟩ | ⟨-, -, hrender⟩ | ⟨-, hrender⟩
  · rw [hrender, hsigil]
  · rw [hrender, List.head?_cons]
  · rw [hrender, List.head?_cons]

theorem token_of_bare (h : (isIdentifier name || isNumeral name) = true) :
    Token sigil (sigil :: name) := by
  rw [Bool.or_eq_true, isNumeral_iff] at h
  rcases h with hword | ⟨hne, hdigits⟩
  · cases name with
    | nil => cases hword
    | cons c rest =>
        obtain ⟨hhead, htail⟩ := isIdentifier_cons_iff.1 hword
        exact .word hhead htail
  · exact .number hne hdigits

theorem token_render_iff (sigil : Char) (name : List Char) :
    Token sigil (render sigil name) ↔ name.head? ≠ some sigil ∨ Token sigil name := by
  rcases render_cases sigil name with ⟨hsigil, hrender⟩ | ⟨hsigil, h, hrender⟩ | ⟨hsigil, hrender⟩
  · rw [hrender]
    simp [hsigil]
  · rw [hrender]
    exact iff_of_true (token_of_bare h) (.inl hsigil)
  · rw [hrender]
    exact iff_of_true (token_quote sigil name) (.inl hsigil)

/-- The operands of functions and blocks are tokens, unless the name starts with the sigil and is no
token itself: such a name is not looked at any further. -/
theorem token_operand_iff (name : String) :
    (Token '@' (function name).toList ↔
      name.toList.head? ≠ some '@' ∨ Token '@' name.toList) ∧
    (Token '%' (block name).toList ↔
      name.toList.head? ≠ some '%' ∨ Token '%' name.toList) := by
  rw [function, block, String.toList_ofList, String.toList_ofList]
  exact ⟨token_render_iff '@' name.toList, token_render_iff '%' name.toList⟩

/-- A name with a space is quoted behind the sigil of blocks, but not where it starts with the sigil
of functions and is the name of one. -/
theorem function_spaced_not_token :
    ¬ Token '@' (function "@a b").toList ∧ Token '%' (block "@a b").toList := by
  constructor
  · have h : (function "@a b").toList = ['@', 'a', ' ', 'b'] := by decide
    rw [h]
    intro htoken
    cases htoken with
    | word head tail => exact absurd (tail ' ' (by simp)) (by decide)
    | number hne hdigits => exact absurd (hdigits ' ' (by simp)) (by decide)
  · exact (token_render_iff '%' "@a b".toList).2 (.inl (by decide))

/-! ## Reading back -/

/-- The bytes of what stands between quotation marks. A backslash with two digits after it is the
byte of that number. -/
def unescape : List Char → Bytes
  | '\\' :: high :: low :: rest =>
    match Json.Quoted.hexValue high, Json.Quoted.hexValue low with
    | some h, some l => UInt8.ofNat (16 * h + l) :: unescape rest
    | _, _ => 0x5C :: unescape (high :: low :: rest)
  | c :: rest => String.utf8EncodeChar c ++ unescape rest
  | [] => []

/-- The bytes of the name of an operand. -/
def decode (operand : List Char) : Bytes :=
  match operand.drop 1 with
  | '\"' :: rest => unescape rest.dropLast
  | rest => rest.flatMap String.utf8EncodeChar

@[simp] theorem hexValue_hexDigit :
    ∀ n < 16, Json.Quoted.hexValue (hexDigit n) = some n := by decide

theorem unescape_plain {c : Char} (h : isPlain c = true) (rest : List Char) :
    unescape (c :: rest) = String.utf8EncodeChar c ++ unescape rest := by
  rw [unescape.eq_2]
  rintro high low rest rfl
  exact absurd h (by decide)

@[simp] theorem unescape_quoteByte (b : UInt8) (rest : List Char) :
    unescape (quoteByte b ++ rest) = b :: unescape rest := by
  rcases quoteByte_cases b with ⟨high, hhigh, low, hlow, hb, hquote⟩ | ⟨c, hc, hbytes, hquote⟩
  · rw [hquote, hb]
    simp only [List.cons_append, List.nil_append, unescape, hexValue_hexDigit high hhigh,
      hexValue_hexDigit low hlow]
  · rw [hquote, List.singleton_append, unescape_plain hc, hbytes, List.singleton_append]

@[simp] theorem unescape_flatMap (bs : Bytes) : unescape (bs.flatMap quoteByte) = bs := by
  induction bs with
  | nil => rfl
  | cons b bs ih => rw [List.flatMap_cons, unescape_quoteByte, ih]

@[simp] theorem decode_quote (sigil : Char) (name : List Char) :
    decode (sigil :: quote name) = name.flatMap String.utf8EncodeChar := by
  have hcontent (content : List Char) :
      decode (sigil :: '\"' :: (content ++ ['\"'])) = unescape content := by
    simp only [decode, List.drop_one, List.tail_cons, List.dropLast_concat]
  exact (hcontent _).trans (unescape_flatMap _)

theorem decode_bare (h : name.head? ≠ some '\"') :
    decode (sigil :: name) = name.flatMap String.utf8EncodeChar := by
  simp only [decode, List.drop_one, List.tail_cons]
  split
  · exact absurd rfl h
  · rfl

/-- The name of an operand can be read off it, unless it starts with the sigil. -/
theorem decode_render (h : name.head? ≠ some sigil) :
    decode (render sigil name) = name.flatMap String.utf8EncodeChar := by
  rcases render_cases sigil name with ⟨hsigil, -⟩ | ⟨-, hbare, hrender⟩ | ⟨-, hrender⟩
  · exact absurd hsigil h
  · rw [hrender, decode_bare (head?_ne_mark hbare)]
  · rw [hrender, decode_quote]

theorem render_of_head? (h : name.head? = some sigil) : render sigil name = name := by
  rw [render, if_pos h]

/-- Nothing is lost in an operand: the bytes of a name without the sigil can be read back from it,
so two such names have different operands. The operand of an operand is that operand. -/
theorem operand_lossless (sigil : Char) :
    (∀ name : String, name.toList.head? ≠ some sigil →
      decode (render sigil name.toList) = textBytes name) ∧
    (∀ name other : String, name.toList.head? ≠ some sigil → other.toList.head? ≠ some sigil →
      render sigil name.toList = render sigil other.toList → name = other) ∧
    ∀ name : List Char, render sigil (render sigil name) = render sigil name := by
  have hdecode (name : String) (h : name.toList.head? ≠ some sigil) :
      decode (render sigil name.toList) = textBytes name := by
    rw [decode_render h, textBytes_eq_flatMap]
  refine ⟨hdecode, ?_, fun name => render_of_head? (head?_render sigil name)⟩
  intro name other hname hother heq
  have hbytes : textBytes name = textBytes other := by
    rw [← hdecode name hname, heq, hdecode other hother]
  have htext := congrArg bytesText? hbytes
  rw [bytesText?_textBytes, bytesText?_textBytes] at htext
  exact Option.some.inj htext

/-- A quotation mark and a letter of two bytes are quoted by number. -/
theorem operand_lossless_quoted :
    render '@' "\"é".toList = "@\"\\22\\C3\\A9\"".toList ∧
      decode "@\"\\22\\C3\\A9\"".toList = [0x22, 0xC3, 0xA9] := by
  have hrender : render '@' "\"é".toList = "@\"\\22\\C3\\A9\"".toList := by decide
  refine ⟨hrender, ?_⟩
  rw [← hrender, (operand_lossless '@').1 _ (by decide), textBytes_eq_flatMap]
  decide

end MachineAtlas.Operand

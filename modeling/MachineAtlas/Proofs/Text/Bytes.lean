-- SUMMARY: The bytes of texts: they determine the text, append, and cannot be cut inside a character.
import MachineAtlas.Files.System
/-!
# Texts and their bytes

The bytes of a text determine it, those of a concatenation are the concatenated bytes, and bytes
that are a text and a front of the bytes of another are those of a front of that text: a cut inside
a character leaves no text.
-/
namespace MachineAtlas

/-! ## Byte arrays as lists -/

/-- The loop of `ByteArray.toList` puts the bytes from a position on behind those it has. -/
private theorem toList_loop (bs : ByteArray) (todo : Nat) :
    ∀ i acc, i + todo = bs.size →
      ByteArray.toList.loop bs i acc = acc.reverse ++ bs.data.toList.drop i := by
  induction todo with
  | zero =>
      intro i acc hi
      have hdone : bs.data.toList.drop i = [] := List.drop_eq_nil_of_le (by simp; omega)
      unfold ByteArray.toList.loop
      simp [hdone, show ¬ i < bs.size by omega]
  | succ todo ih =>
      intro i acc hi
      have hlt : i < bs.data.toList.length := by simp; omega
      unfold ByteArray.toList.loop
      rw [if_pos (by omega), ih (i + 1) _ (by omega), List.drop_eq_getElem_cons hlt]
      simp [ByteArray.get!, show i < bs.size by omega]

private theorem byteArray_toList (bs : ByteArray) : bs.toList = bs.data.toList :=
  toList_loop bs bs.size 0 [] (Nat.zero_add _)

/-! ## Writing -/

theorem textBytes_eq (s : String) : textBytes s = s.toByteArray.data.toList := by
  rw [textBytes, String.toUTF8_eq_toByteArray, byteArray_toList]

/-- The bytes of a text are those of its characters in order. -/
@[simp] theorem length_textBytes (s : String) : (textBytes s).length = s.utf8ByteSize := by
  rw [textBytes_eq]
  rfl

@[simp] theorem textBytes_ofList (cs : List Char) :
    textBytes (String.ofList cs) = cs.flatMap String.utf8EncodeChar := by
  rw [textBytes_eq, String.toByteArray_ofList, List.utf8Encode, List.toList_data_toByteArray]

theorem textBytes_eq_flatMap (s : String) :
    textBytes s = s.toList.flatMap String.utf8EncodeChar := by
  rw [← textBytes_ofList, String.ofList_toList]

@[simp] theorem textBytes_append (s t : String) :
    textBytes (s ++ t) = textBytes s ++ textBytes t := by
  simp [textBytes_eq_flatMap]

@[simp] theorem textBytes_empty : textBytes "" = [] := by
  simp [textBytes_eq_flatMap]

@[simp] theorem textBytes_newline : textBytes "\n" = [0x0A] := by
  rw [textBytes_eq_flatMap]
  decide

@[simp] theorem textBytes_carriageReturn : textBytes "\r" = [0x0D] := by
  rw [textBytes_eq_flatMap]
  decide

/-- Only texts without characters have no bytes. -/
theorem textBytes_eq_nil {s : String} (h : textBytes s = []) : s = "" := by
  rw [textBytes_eq_flatMap, List.flatMap_eq_nil_iff] at h
  have hnil : s.toList = [] :=
    List.eq_nil_iff_forall_not_mem.2 fun c hc => String.utf8EncodeChar_ne_nil (h c hc)
  simpa using hnil

/-! ## Reading -/

@[simp] theorem bytesText?_textBytes (s : String) : bytesText? (textBytes s) = some s := by
  have harray : (⟨(textBytes s).toArray⟩ : ByteArray) = s.toByteArray := by
    rw [textBytes_eq]
  rw [bytesText?, harray, String.fromUTF8?, dif_pos s.isValidUTF8]
  rfl

/-- Bytes are those of the text that they are read as. -/
theorem textBytes_of_bytesText? {bs : Bytes} {s : String} (h : bytesText? bs = some s) :
    textBytes s = bs := by
  rw [bytesText?, String.fromUTF8?] at h
  split at h
  · cases h
    simp [textBytes_eq, String.fromUTF8]
  · cases h

/-- Bytes at the front of a text, if they are a text, are the front of it. -/
theorem isPrefix_of_textBytes {s t : String} {rest : Bytes}
    (h : textBytes s ++ rest = textBytes t) : s.toList <+: t.toList := by
  refine List.isPrefix_of_utf8Encode_append_eq_utf8Encode ⟨rest.toArray⟩ ?_
  apply ByteArray.ext
  apply Array.ext'
  simpa [textBytes_eq, String.utf8Encode_toList, ByteArray.data_append] using h

/-- Bytes that end inside a character are no text. -/
theorem bytesText?_cut (s : String) {c : Char} {m : Nat} (hpos : 0 < m) (hlt : m < c.utf8Size) :
    bytesText? (textBytes s ++ (String.utf8EncodeChar c).take m) = none := by
  cases htext : bytesText? (textBytes s ++ (String.utf8EncodeChar c).take m) with
  | none => rfl
  | some u =>
      have hu : textBytes u = textBytes s ++ (String.utf8EncodeChar c).take m :=
        textBytes_of_bytesText? htext
      have hlength : (textBytes u).length = (textBytes s).length + m := by
        rw [hu, List.length_append, List.length_take, String.length_utf8EncodeChar]
        omega
      have hwhole : textBytes (String.ofList (s.toList ++ [c])) =
          textBytes s ++ String.utf8EncodeChar c := by
        rw [textBytes_ofList, List.flatMap_append, ← textBytes_eq_flatMap, List.flatMap_singleton]
      have hfront : u.toList <+: s.toList ++ [c] := by
        rw [← String.toList_ofList (l := s.toList ++ [c])]
        have hmore : textBytes u ++ (String.utf8EncodeChar c).drop m =
            textBytes (String.ofList (s.toList ++ [c])) := by
          rw [hu, hwhole, List.append_assoc, List.take_append_drop]
        exact isPrefix_of_textBytes hmore
      -- All of `s` and `c` is longer than these bytes, and a front of `s` is shorter.
      rcases List.prefix_concat_iff.1 hfront with heq | ⟨rest, hrest⟩
      · rw [← heq, String.ofList_toList] at hwhole
        rw [hwhole, List.length_append, String.length_utf8EncodeChar] at hlength
        omega
      · rw [textBytes_eq_flatMap s, ← hrest, List.flatMap_append, ← textBytes_eq_flatMap,
          List.length_append] at hlength
        omega

/-! ## Controls -/

/-- A byte of a character is the whole character, or it is not one of the first 128. -/
private theorem mem_utf8EncodeChar {c : Char} {b : UInt8} (hb : b ∈ String.utf8EncodeChar c)
    (hlt : b.toNat < 128) : c.toNat = b.toNat := by
  have hne : ∀ n, 128 ≤ n → n < 256 → b ≠ UInt8.ofNat n := by
    rintro n hlow hhigh rfl
    simp only [UInt8.toNat_ofNat'] at hlt
    omega
  unfold String.utf8EncodeChar at hb
  simp only [] at hb
  split at hb
  · obtain rfl : b = _ := by simpa using hb
    have hc : c.val.toNat ≤ 127 := by assumption
    simp only [UInt8.toNat_ofNat', Char.toNat]
    omega
  -- Longer encodings are made of bytes from 128 on.
  · exfalso
    split at hb
    · simp only [List.mem_cons, List.not_mem_nil, or_false] at hb
      rcases hb with hb | hb <;> exact hne _ (by omega) (by omega) hb
    · split at hb
      · simp only [List.mem_cons, List.not_mem_nil, or_false] at hb
        rcases hb with hb | hb | hb <;> exact hne _ (by omega) (by omega) hb
      · simp only [List.mem_cons, List.not_mem_nil, or_false] at hb
        rcases hb with hb | hb | hb | hb <;> exact hne _ (by omega) (by omega) hb

/-- A byte of a text that is one of the first 128 is one of its characters. -/
theorem exists_mem_of_mem_textBytes {s : String} {b : UInt8} (hb : b ∈ textBytes s)
    (hlt : b.toNat < 128) : ∃ c ∈ s.toList, c.toNat = b.toNat := by
  rw [textBytes_eq_flatMap, List.mem_flatMap] at hb
  obtain ⟨c, hc, hb⟩ := hb
  exact ⟨c, hc, mem_utf8EncodeChar hb hlt⟩

/-- A last byte that is one of the first 128 is the last character. -/
theorem exists_of_textBytes_concat {s : String} {bs : Bytes} {b : UInt8}
    (h : textBytes s = bs ++ [b]) (hlt : b.toNat < 128) :
    ∃ cs, cs <+: s.toList ∧ textBytes (String.ofList cs) = bs := by
  rw [textBytes_eq_flatMap] at h
  rcases List.eq_nil_or_concat s.toList with hnil | ⟨cs, c, hcs⟩
  · simp [hnil] at h
  · rw [hcs, List.concat_eq_append, List.flatMap_append, List.flatMap_singleton] at h
    have hlast : b ∈ String.utf8EncodeChar c := by
      apply List.mem_of_getLast?
      have hback := congrArg List.getLast? h
      rwa [List.getLast?_append, List.getLast?_concat, Option.or_of_isSome] at hback
      simp
    -- The last character has a byte below 128, and so no other byte.
    have hcode : c.toNat = b.toNat := mem_utf8EncodeChar hlast hlt
    have hsmall : c.val ≤ 127 := by
      rw [← hcode] at hlt
      exact UInt32.le_iff_toNat_le.2 (Nat.le_of_lt_succ hlt)
    have hone : String.utf8EncodeChar c = [b] := by
      have hsize := String.utf8EncodeChar_eq_singleton (Char.utf8Size_eq_one_iff.2 hsmall)
      rw [hsize, List.mem_singleton] at hlast
      rw [hsize, hlast]
    rw [hone] at h
    refine ⟨cs, ⟨[c], by rw [hcs, List.concat_eq_append]⟩, ?_⟩
    rw [textBytes_ofList]
    exact List.append_cancel_right h

/-- A last character of one byte may be taken away from a text, or added to it. -/
theorem isSome_bytesText?_concat {t : String} {b : UInt8} (ht : textBytes t = [b])
    (hlt : b.toNat < 128) (bs : Bytes) :
    (bytesText? (bs ++ [b])).isSome = (bytesText? bs).isSome := by
  rw [Bool.eq_iff_iff, Option.isSome_iff_exists, Option.isSome_iff_exists]
  constructor
  · rintro ⟨s, hs⟩
    obtain ⟨cs, -, hcs⟩ := exists_of_textBytes_concat (textBytes_of_bytesText? hs) hlt
    exact ⟨String.ofList cs, by rw [← hcs, bytesText?_textBytes]⟩
  · rintro ⟨s, hs⟩
    exact ⟨s ++ t, by rw [← textBytes_of_bytesText? hs, ← ht, ← textBytes_append,
      bytesText?_textBytes]⟩

end MachineAtlas

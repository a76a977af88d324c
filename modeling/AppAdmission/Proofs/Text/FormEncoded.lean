import AppAdmission.Proofs.Text.Utf8
import AppAdmission.Text.FormEncoded

/-!
# Reading form encoding back

What is written for a text is read as that text, and it is made of characters that neither end a query
nor separate its parts, so names and values in a query are read back one by one.
-/

namespace AppAdmission

namespace Text

/-- A text without the separator is one piece. -/
theorem splitOn_of_not_mem {sep : Char} {cs : List Char} (fresh : sep ∉ cs) : splitOn sep cs = [cs] := by
  induction cs with
  | nil => rfl
  | cons c rest ih =>
    have other : c ≠ sep := fun same => fresh (same ▸ List.mem_cons_self)
    have later := ih fun there => fresh (List.mem_cons_of_mem c there)
    simp [splitOn, other, later]

/-- The first piece ends at the first separator. -/
theorem splitOn_append {sep : Char} {front : List Char} (fresh : sep ∉ front) (back : List Char) :
    splitOn sep (front ++ sep :: back) = front :: splitOn sep back := by
  induction front with
  | nil => simp [splitOn]
  | cons c rest ih =>
    have other : c ≠ sep := fun same => fresh (same ▸ List.mem_cons_self)
    have later := ih fun there => fresh (List.mem_cons_of_mem c there)
    simp [splitOn, other, later]

/-- What stands in joined pieces is the separator, or it stands in a piece. -/
theorem mem_joinWith {sep c : Char} {pieces : List (List Char)} (there : c ∈ joinWith sep pieces) :
    c = sep ∨ ∃ piece ∈ pieces, c ∈ piece := by
  induction pieces with
  | nil => cases there
  | cons first rest ih =>
    cases rest with
    | nil => exact .inr ⟨first, List.mem_cons_self, there⟩
    | cons next rest =>
      rcases List.mem_append.1 there with there | there
      · exact .inr ⟨first, List.mem_cons_self, there⟩
      · rcases List.mem_cons.1 there with same | there
        · exact .inl same
        · exact (ih there).imp_right fun ⟨piece, within, there⟩ =>
            ⟨piece, List.mem_cons_of_mem first within, there⟩

end Text

namespace FormEncoded

/-- The character is one of those that are written. -/
def writtenB (c : Char) : Bool :=
  c.toNat < 128 && (isPlain (UInt8.ofNat c.toNat) || c == '+' || c == '%')

/-- A character of one byte. -/
theorem utf8EncodeChar_of_lt {c : Char} (small : c.toNat < 128) :
    String.utf8EncodeChar c = [UInt8.ofNat c.toNat] := by
  have below : c.val.toNat ≤ 127 := by
    have same : c.val.toNat = c.toNat := rfl
    omega
  unfold String.utf8EncodeChar
  simp only [below, if_true]
  rfl

theorem toNat_of_isPlain {b : UInt8} (plain : isPlain b = true) : b.toNat < 128 := by
  simp only [isPlain, Bool.or_eq_true, Bool.and_eq_true, decide_eq_true_eq, beq_iff_eq] at plain
  omega

theorem toNat_charOfNat {n : Nat} (small : n < 128) : (Char.ofNat n).toNat = n := by
  have valid : n.isValidChar := Or.inl (by omega)
  unfold Char.ofNat
  rw [dif_pos valid]
  rfl

theorem hexDigit_facts : ∀ n < 16, (hexDigit n).toNat < 128 ∧
    isPlain (UInt8.ofNat (hexDigit n).toNat) = true ∧
    hexValue? (UInt8.ofNat (hexDigit n).toNat) = some n := by
  decide

/-- How a byte is written, and by which bytes. -/
theorem encode_encodeByte (b : UInt8) :
    Utf8.encode (encodeByte b) =
      if isPlain b then [b]
      else if b = 32 then [0x2B]
      else [0x25, UInt8.ofNat (hexDigit (b.toNat / 16)).toNat,
        UInt8.ofNat (hexDigit (b.toNat % 16)).toNat] := by
  unfold encodeByte
  split
  · next plain =>
    have small := toNat_charOfNat (toNat_of_isPlain plain)
    have low : (Char.ofNat b.toNat).toNat < 128 := by
      rw [small]
      exact toNat_of_isPlain plain
    rw [Utf8.encode_cons, Utf8.encode_nil, utf8EncodeChar_of_lt low, small]
    simp
  · split
    · rfl
    · have bound := b.toNat_lt
      obtain ⟨high, -, -⟩ := hexDigit_facts (b.toNat / 16) (by omega)
      obtain ⟨low, -, -⟩ := hexDigit_facts (b.toNat % 16) (by omega)
      rw [Utf8.encode_cons, Utf8.encode_cons, Utf8.encode_cons, Utf8.encode_nil,
        utf8EncodeChar_of_lt high, utf8EncodeChar_of_lt low]
      rfl

theorem decodeBytes_cons {b : UInt8} (other : b ≠ 0x25) (rest : List UInt8) :
    decodeBytes (b :: rest) = (if b = 0x2B then 0x20 else b) :: decodeBytes rest := by
  match rest with
  | [] => rw [decodeBytes]; simp [decodeBytes]
  | [_] => rw [decodeBytes]; simp
  | _ :: _ :: _ => rw [decodeBytes]; simp [other]

theorem decodeBytes_encodeByte (b : UInt8) (rest : List UInt8) :
    decodeBytes (Utf8.encode (encodeByte b) ++ rest) = b :: decodeBytes rest := by
  rw [encode_encodeByte]
  split
  · next plain =>
    have percent : b ≠ 0x25 := by
      rintro rfl
      cases plain
    have plus : b ≠ 0x2B := by
      rintro rfl
      cases plain
    rw [List.singleton_append, decodeBytes_cons percent, if_neg plus]
  · split
    · next space =>
      rw [space, List.singleton_append, decodeBytes_cons (by decide)]
      rfl
    · have bound := b.toNat_lt
      obtain ⟨-, -, high⟩ := hexDigit_facts (b.toNat / 16) (by omega)
      obtain ⟨-, -, low⟩ := hexDigit_facts (b.toNat % 16) (by omega)
      have whole : b.toNat / 16 * 16 + b.toNat % 16 = b.toNat := by omega
      simp only [List.cons_append, List.nil_append]
      rw [decodeBytes]
      simp [high, low, whole]

theorem decodeBytes_flatMap (bytes : List UInt8) :
    decodeBytes (Utf8.encode (bytes.flatMap encodeByte)) = bytes := by
  induction bytes with
  | nil => rfl
  | cons b rest ih => rw [List.flatMap_cons, Utf8.encode_append, decodeBytes_encodeByte, ih]

/-- What is written for a text is read as the text. -/
theorem decode_encode (s : String) : decode (encode s) = s := by
  have chars : Utf8.decodeLossy (Utf8.encode s.toList) = s.toList := by
    unfold Utf8.decodeLossy
    rw [Utf8.decode_encode, List.map_map]
    exact List.map_id _
  unfold decode encode
  rw [decodeBytes_flatMap, chars, String.ofList_toList]

theorem writtenB_encodeByte {b : UInt8} {c : Char} (there : c ∈ encodeByte b) : writtenB c = true := by
  have digit (n : Nat) (small : n < 16) : writtenB (hexDigit n) = true := by
    obtain ⟨low, plain, -⟩ := hexDigit_facts n small
    simp [writtenB, low, plain]
  have bound := b.toNat_lt
  unfold encodeByte at there
  split at there
  · next plain =>
    obtain rfl := List.mem_singleton.1 there
    have low := toNat_of_isPlain plain
    simp [writtenB, toNat_charOfNat low, low, plain]
  · split at there
    · obtain rfl := List.mem_singleton.1 there
      rfl
    · simp only [List.mem_cons, List.not_mem_nil, or_false] at there
      rcases there with rfl | rfl | rfl
      · rfl
      · exact digit _ (by omega)
      · exact digit _ (by omega)

theorem writtenB_encode {s : String} {c : Char} (there : c ∈ encode s) : writtenB c = true := by
  obtain ⟨b, -, there⟩ := List.mem_flatMap.1 there
  exact writtenB_encodeByte there

/-- No character with a meaning of its own is written. -/
theorem not_mem_encode {s : String} {c : Char} (special : writtenB c = false) : c ∉ encode s := by
  intro there
  rw [writtenB_encode there] at special
  cases special

/-- A name and a value. -/
def pair (piece : List Char) : String × String :=
  (decode (piece.takeWhile (· != '=')), decode ((piece.dropWhile (· != '=')).drop 1))

theorem pairs_eq (query : List Char) :
    pairs query = ((Text.splitOn '&' query).filter fun p => !p.isEmpty).map pair := rfl

theorem pair_append {name : List Char} (fresh : '=' ∉ name) (value : String) :
    pair (name ++ '=' :: encode value) = (decode name, value) := by
  have others : ∀ c ∈ name, (c != '=') = true := by
    intro c there
    simp only [bne_iff_ne, ne_eq]
    rintro rfl
    exact fresh there
  unfold pair
  rw [List.takeWhile_append_of_pos others, List.dropWhile_append_of_pos others]
  simp [decode_encode]

end FormEncoded

end AppAdmission

import Candlestick.ContractKey
import Candlestick.Proofs.Digits
import Mathlib.Data.List.DropRight
import Mathlib.Data.List.GetD
import Mathlib.Tactic.Common
import Mathlib.Tactic.IntervalCases

/-!
# The forms of a key

A key, its twelve bytes, its symbol and its text stand for each other. Bytes and words are read back
as they were. A symbol is padded with zero bytes, so symbols that differ only in zero bytes at the
end give one key, and others do not. The text of a key is its symbol wherever it reads as one, and
otherwise too long for one, so no two keys have the same text (`ContractKey.forms_agree`).
-/

namespace Candlestick.ContractKey

variable {k : ContractKey} {s : String} {bytes : List UInt8}

/-! ### Bytes of words -/

lemma toNat_byteOfWord (w : UInt32) (i : Nat) :
    (byteOfWord w i).toNat = w.toNat / 2 ^ (8 * i) % 2 ^ 8 := by
  rw [byteOfWord, UInt8.toNat_ofNat']

lemma toNat_wordOfBytes (b₀ b₁ b₂ b₃ : UInt8) :
    (wordOfBytes b₀ b₁ b₂ b₃).toNat =
      b₀.toNat + 2 ^ 8 * b₁.toNat + 2 ^ 16 * b₂.toNat + 2 ^ 24 * b₃.toNat := by
  have h₀ := b₀.toNat_lt
  have h₁ := b₁.toNat_lt
  have h₂ := b₂.toNat_lt
  have h₃ := b₃.toNat_lt
  rw [wordOfBytes, UInt32.toNat_ofNat', Nat.mod_eq_of_lt (by omega)]

lemma wordOfBytes_byteOfWord (w : UInt32) :
    wordOfBytes (byteOfWord w 0) (byteOfWord w 1) (byteOfWord w 2) (byteOfWord w 3) = w := by
  have hw := w.toNat_lt
  rw [← UInt32.toNat_inj, toNat_wordOfBytes]
  simp only [toNat_byteOfWord]
  omega

lemma byteOfWord_wordOfBytes (b₀ b₁ b₂ b₃ : UInt8) :
    byteOfWord (wordOfBytes b₀ b₁ b₂ b₃) 0 = b₀ ∧ byteOfWord (wordOfBytes b₀ b₁ b₂ b₃) 1 = b₁ ∧
      byteOfWord (wordOfBytes b₀ b₁ b₂ b₃) 2 = b₂ ∧ byteOfWord (wordOfBytes b₀ b₁ b₂ b₃) 3 = b₃ := by
  have h₀ := b₀.toNat_lt
  have h₁ := b₁.toNat_lt
  have h₂ := b₂.toNat_lt
  have h₃ := b₃.toNat_lt
  simp only [← UInt8.toNat_inj, toNat_byteOfWord, toNat_wordOfBytes]
  omega

lemma ofBytes_toBytes (k : ContractKey) : ofBytes k.toBytes = k := by
  have hwords : ofBytes k.toBytes =
      ⟨wordOfBytes (byteOfWord k.w0 0) (byteOfWord k.w0 1) (byteOfWord k.w0 2) (byteOfWord k.w0 3),
        wordOfBytes (byteOfWord k.w1 0) (byteOfWord k.w1 1) (byteOfWord k.w1 2) (byteOfWord k.w1 3),
        wordOfBytes (byteOfWord k.w2 0) (byteOfWord k.w2 1) (byteOfWord k.w2 2)
          (byteOfWord k.w2 3)⟩ := rfl
  rw [hwords, wordOfBytes_byteOfWord, wordOfBytes_byteOfWord, wordOfBytes_byteOfWord]

lemma toBytes_ofBytes (b : Vector UInt8 12) : (ofBytes b).toBytes = b := by
  obtain ⟨h₀, h₁, h₂, h₃⟩ := byteOfWord_wordOfBytes b[0] b[1] b[2] b[3]
  obtain ⟨h₄, h₅, h₆, h₇⟩ := byteOfWord_wordOfBytes b[4] b[5] b[6] b[7]
  obtain ⟨h₈, h₉, h₁₀, h₁₁⟩ := byteOfWord_wordOfBytes b[8] b[9] b[10] b[11]
  rw [toBytes, ofBytes]
  dsimp only
  rw [h₀, h₁, h₂, h₃, h₄, h₅, h₆, h₇, h₈, h₉, h₁₀, h₁₁]
  apply Vector.ext
  intro i hi
  interval_cases i <;> rfl

/-! ### Bytes at the end -/

/-- The bytes up to the last one that is not zero. -/
def trimmed (bytes : List UInt8) : List UInt8 :=
  bytes.rdropWhile (· == 0)

lemma usedBytes_eq (k : ContractKey) : k.usedBytes = trimmed k.toBytes.toList := rfl

lemma trimmed_trimmed (bytes : List UInt8) : trimmed (trimmed bytes) = trimmed bytes :=
  List.rdropWhile_idempotent _ bytes

lemma trimmed_eq_nil_iff : trimmed bytes = [] ↔ ∀ b ∈ bytes, b = 0 := by
  rw [trimmed, List.rdropWhile_eq_nil_iff]
  simp only [beq_iff_eq]

lemma trimmed_eq_self (h : ∀ b ∈ bytes, b ≠ 0) : trimmed bytes = bytes := by
  rw [trimmed, List.rdropWhile_eq_self_iff]
  intro hne
  exact fun hzero => h _ (List.getLast_mem hne) (beq_iff_eq.mp hzero)

lemma trimmed_append_replicate (bytes : List UInt8) (count : Nat) :
    trimmed (bytes ++ .replicate count 0) = trimmed bytes := by
  induction count with
  | zero => rw [List.replicate_zero, List.append_nil]
  | succ count ih =>
    rw [List.replicate_succ', ← List.append_assoc, trimmed, List.rdropWhile_concat_pos _ _ _ rfl]
    exact ih

/-- Bytes are what is left of them without the zeros at their end, and these zeros. -/
lemma trimmed_append_zeros (bytes : List UInt8) :
    trimmed bytes ++ .replicate (bytes.length - (trimmed bytes).length) 0 = bytes := by
  have hparts := List.rdropWhile_append_rtakeWhile (l := bytes) (p := (· == (0 : UInt8)))
  have hzeros : bytes.rtakeWhile (· == 0) =
      .replicate (bytes.rtakeWhile (· == (0 : UInt8))).length 0 :=
    List.eq_replicate_of_mem fun b hb =>
      beq_iff_eq.mp (List.mem_rtakeWhile_imp (p := fun b => b == (0 : UInt8)) hb)
  have hlength := congrArg List.length hparts
  rw [List.length_append] at hlength
  have hcount : bytes.length - (trimmed bytes).length =
      (bytes.rtakeWhile (· == (0 : UInt8))).length := by
    rw [trimmed]
    omega
  rw [hcount, ← hzeros]
  exact hparts

/-- A key is known by its bytes up to the last one that is not zero. -/
lemma usedBytes_injective : Function.Injective usedBytes := by
  intro k k' h
  have hbytes : k.toBytes.toList = k'.toBytes.toList := by
    rw [← trimmed_append_zeros k.toBytes.toList, ← trimmed_append_zeros k'.toBytes.toList,
      ← usedBytes_eq, ← usedBytes_eq, h, Vector.length_toList, Vector.length_toList]
  rw [← ofBytes_toBytes k, ← ofBytes_toBytes k', Vector.toList_inj.mp hbytes]

lemma usedBytes_eq_nil_iff : k.usedBytes = [] ↔ k = .null :=
  usedBytes_injective.eq_iff' (by decide)

lemma length_usedBytes_le (k : ContractKey) : k.usedBytes.length ≤ 12 :=
  (List.rdropWhile_prefix _ k.toBytes.toList).length_le.trans_eq k.toBytes.length_toList

/-! ### Symbols -/

/-- The symbols that a key can hold. -/
lemma ofSymbol?_eq_some_iff :
    ofSymbol? s = some k ↔ (1 ≤ (symbolBytes s).length ∧ (symbolBytes s).length ≤ 12) ∧
      k.usedBytes = trimmed (symbolBytes s) := by
  have hpadded (h : (symbolBytes s).length ≤ 12) :
      (ofBytes (.ofFn fun i => (symbolBytes s).getD i 0)).usedBytes = trimmed (symbolBytes s) := by
    rw [usedBytes_eq, toBytes_ofBytes, ← trimmed_append_replicate (symbolBytes s)
      (12 - (symbolBytes s).length)]
    congr 1
    apply List.ext_getElem
    · simp [h]
    · intro i hi _
      rw [Vector.getElem_toList, Vector.getElem_ofFn, List.getElem_append]
      split_ifs with hlt
      · exact List.getD_eq_getElem _ _ hlt
      · rw [List.getElem_replicate]
        exact List.getD_eq_default _ _ (Nat.le_of_not_lt hlt)
  rw [ofSymbol?]
  split_ifs with h
  · rw [Option.some_inj, and_iff_right h, ← hpadded h.2, usedBytes_injective.eq_iff, eq_comm]
  · simp [h]

lemma symbolBytes_ofList (cs : List Char) :
    symbolBytes (.ofList cs) = cs.flatMap String.utf8EncodeChar := by
  rw [symbolBytes, String.toByteArray_ofList, List.utf8Encode, List.toList_data_toByteArray]

lemma symbolBytes_injective : Function.Injective symbolBytes := by
  intro s s' h
  exact String.toByteArray_inj.mp (ByteArray.ext (Array.toList_inj.mp h))

/-- A text has no fewer bytes than characters. -/
lemma length_le_symbolBytes (cs : List Char) : cs.length ≤ (symbolBytes (.ofList cs)).length := by
  rw [symbolBytes_ofList]
  induction cs with
  | nil => exact Nat.le_refl 0
  | cons c cs ih =>
    have hc := c.utf8Size_pos
    rw [List.flatMap_cons, List.length_append, List.length_cons, String.length_utf8EncodeChar]
    omega

/-- A byte that a symbol can show is the one byte of its character. -/
lemma utf8EncodeChar_ofNat {b : UInt8} (h : b ≤ 0x7e) :
    String.utf8EncodeChar (.ofNat b.toNat) = [b] := by
  have hlt : b.toNat ≤ 0x7e := UInt8.le_iff_toNat_le.mp h
  have hval : (Char.ofNat b.toNat).val.toNat = b.toNat := by
    rw [Char.ofNat, dif_pos (.inl (by omega))]
    rfl
  rw [String.utf8EncodeChar, hval, if_pos (by omega), UInt8.ofNat_toNat]

/-! ### Texts -/

lemma isSymbol_iff : k.isSymbol ↔ k ≠ .null ∧ ∀ b ∈ k.usedBytes, 0x21 ≤ b ∧ b ≤ 0x7e := by
  rw [isSymbol, Bool.and_eq_true, List.all_eq_true, Bool.not_eq_true', List.isEmpty_eq_false_iff,
    ne_eq, usedBytes_eq_nil_iff]
  simp only [isPrinting, Bool.and_eq_true, decide_eq_true_eq, ne_eq]

/-- The text of a key that reads as a symbol shows its bytes. -/
lemma symbolBytes_text (h : k.isSymbol) : symbolBytes k.text = k.usedBytes := by
  obtain ⟨-, hprinting⟩ := isSymbol_iff.mp h
  rw [text, if_pos h, symbolBytes_ofList, List.flatMap_map]
  calc
    k.usedBytes.flatMap (fun b => String.utf8EncodeChar (.ofNat b.toNat))
      = k.usedBytes.flatMap fun b => [b] :=
        List.flatMap_congr fun b hb => utf8EncodeChar_ofNat (hprinting b hb).2
    _ = k.usedBytes := List.flatMap_singleton' _

/-- The text of a key that does not read as a symbol is too long for one. -/
lemma lt_length_symbolBytes_text (h : ¬ k.isSymbol) : 12 < (symbolBytes k.text).length := by
  rw [text, if_neg h]
  refine Nat.lt_of_lt_of_le ?_ (length_le_symbolBytes _)
  simp [hexWord]

/-- The symbol shown by a key is the symbol of that key. -/
lemma ofSymbol?_text (k : ContractKey) :
    ofSymbol? k.text = if k.isSymbol then some k else none := by
  split_ifs with h
  · have hne : k.usedBytes ≠ [] := fun hnil => (isSymbol_iff.mp h).1 (usedBytes_eq_nil_iff.mp hnil)
    rw [ofSymbol?_eq_some_iff, symbolBytes_text h]
    refine ⟨⟨List.length_pos_iff.mpr hne, length_usedBytes_le k⟩, ?_⟩
    rw [usedBytes_eq, trimmed_trimmed]
  · have hlong := lt_length_symbolBytes_text h
    rw [Option.eq_none_iff_forall_ne_some]
    intro key hkey
    have hshort := (ofSymbol?_eq_some_iff.mp hkey).1.2
    omega

lemma hexWord_injective : Function.Injective hexWord := by
  intro w v h
  have hmod := Digits.mod_eq_of_fixed_eq (by decide) (by decide) h
  rw [Nat.mod_eq_of_lt w.toNat_lt, Nat.mod_eq_of_lt v.toNat_lt] at hmod
  exact UInt32.toNat_inj.mp hmod

lemma text_injective : Function.Injective text := by
  intro k k' h
  have hsymbols := (ofSymbol?_text k).symm.trans ((congrArg ofSymbol? h).trans (ofSymbol?_text k'))
  by_cases hk : k.isSymbol <;> by_cases hk' : k'.isSymbol
  · simpa [hk, hk'] using hsymbols
  · simp [hk, hk'] at hsymbols
  · simp [hk, hk'] at hsymbols
  · rw [text, text, if_neg hk, if_neg hk', String.ofList_inj] at h
    obtain ⟨h, h₂⟩ := List.append_inj' h (by simp [hexWord])
    obtain ⟨h₀, h₁⟩ := List.append_inj' h (by simp [hexWord])
    obtain ⟨w0, w1, w2⟩ := k
    obtain ⟨v0, v1, v2⟩ := k'
    rw [mk.injEq]
    exact ⟨hexWord_injective h₀, hexWord_injective (List.cons.inj h₁).2,
      hexWord_injective (List.cons.inj h₂).2⟩

/-- The key of a symbol that can be shown shows it. -/
lemma exists_ofSymbol? (hpos : 1 ≤ (symbolBytes s).length) (hle : (symbolBytes s).length ≤ 12)
    (hprinting : ∀ b ∈ symbolBytes s, 0x21 ≤ b ∧ b ≤ 0x7e) :
    ∃ k, k ≠ .null ∧ ofSymbol? s = some k ∧ k.text = s := by
  obtain ⟨k, hk⟩ : ∃ k, ofSymbol? s = some k := ⟨_, if_pos ⟨hpos, hle⟩⟩
  have hused : k.usedBytes = symbolBytes s := by
    rw [(ofSymbol?_eq_some_iff.mp hk).2]
    apply trimmed_eq_self
    rintro b hb rfl
    exact absurd (hprinting 0 hb).1 (by decide)
  have hnull : k ≠ .null := by
    rw [ne_eq, ← usedBytes_eq_nil_iff, hused]
    exact List.ne_nil_of_length_pos hpos
  have hsymbol : k.isSymbol := isSymbol_iff.mpr ⟨hnull, hused ▸ hprinting⟩
  exact ⟨k, hnull, hk, symbolBytes_injective ((symbolBytes_text hsymbol).trans hused)⟩

/--
A key is read back from its bytes, and bytes from their key. The text of a key that reads as a
symbol gives the key again and the text of any other key gives none, a symbol that can be shown is
shown, and no two keys have the same text. Two symbols give one key if and only if they differ in
nothing but zero bytes at the end, and a symbol gives the null key if and only if it has no other
bytes.
-/
theorem forms_agree (k k' : ContractKey) (b : Vector UInt8 12) (s s' : String) :
    ofBytes k.toBytes = k ∧
      (ofBytes b).toBytes = b ∧
      (k.isSymbol ↔ k ≠ .null ∧ ∀ b ∈ trimmed k.toBytes.toList, 0x21 ≤ b ∧ b ≤ 0x7e) ∧
      ofSymbol? k.text = (if k.isSymbol then some k else none) ∧
      ((ofSymbol? s).isSome ↔ 1 ≤ (symbolBytes s).length ∧ (symbolBytes s).length ≤ 12) ∧
      (1 ≤ (symbolBytes s).length → (symbolBytes s).length ≤ 12 →
        (∀ b ∈ symbolBytes s, 0x21 ≤ b ∧ b ≤ 0x7e) →
        ∃ key, key ≠ .null ∧ ofSymbol? s = some key ∧ key.text = s) ∧
      (k.text = k'.text → k = k') ∧
      (ofSymbol? s = some k → ofSymbol? s' = some k' →
        (k = k' ↔ trimmed (symbolBytes s) = trimmed (symbolBytes s'))) ∧
      (ofSymbol? s = some k → (k = .null ↔ ∀ b ∈ symbolBytes s, b = 0)) := by
  refine ⟨ofBytes_toBytes k, toBytes_ofBytes b, isSymbol_iff, ofSymbol?_text k, ?_,
    exists_ofSymbol?, @text_injective k k', ?_, ?_⟩
  · rw [ofSymbol?]
    split_ifs with h
    · simp [h]
    · simp [h]
  · intro h h'
    rw [← (ofSymbol?_eq_some_iff.mp h).2, ← (ofSymbol?_eq_some_iff.mp h').2,
      usedBytes_injective.eq_iff]
  · intro h
    rw [← usedBytes_eq_nil_iff, (ofSymbol?_eq_some_iff.mp h).2, trimmed_eq_nil_iff]

/-- A zero byte at the end of a symbol does not show, and a symbol of zero bytes names nothing. -/
theorem forms_agree_padded :
    (∀ b ∈ symbolBytes "ES", 0x21 ≤ b ∧ b ≤ 0x7e) ∧
      (∃ key, key ≠ .null ∧ ofSymbol? "ES" = some key ∧ key.text = "ES") ∧
      ofSymbol? "ES" = some ⟨0x5345, 0, 0⟩ ∧ ofSymbol? "ES\x00" = some ⟨0x5345, 0, 0⟩ ∧
      trimmed (symbolBytes "ES") = trimmed (symbolBytes "ES\x00") ∧
      ofSymbol? "\x00" = some .null ∧ ∀ b ∈ symbolBytes "\x00", b = 0 := by
  have hprinting : ∀ b ∈ symbolBytes "ES", 0x21 ≤ b ∧ b ≤ 0x7e := by decide +kernel
  have hplain : ofSymbol? "ES" = some ⟨0x5345, 0, 0⟩ := by decide +kernel
  have hpadded : ofSymbol? "ES\x00" = some ⟨0x5345, 0, 0⟩ := by decide +kernel
  have hzero : ofSymbol? "\x00" = some .null := by decide +kernel
  obtain ⟨-, -, -, -, -, hshown, -, hsame, -⟩ :=
    forms_agree ⟨0x5345, 0, 0⟩ ⟨0x5345, 0, 0⟩ (.replicate 12 0) "ES" "ES\x00"
  obtain ⟨-, -, -, -, -, -, -, -, hnull⟩ := forms_agree .null .null (.replicate 12 0) "\x00" "\x00"
  exact ⟨hprinting, hshown (by decide) (by decide) hprinting, hplain, hpadded,
    (hsame hplain hpadded).mp rfl, hzero, (hnull hzero).mp rfl⟩

end Candlestick.ContractKey

import Mathlib.Data.List.Basic

/-!
# Go's text encodings

`encoding/hex`, `encoding/base64`, and `encoding/json` on flat objects, on byte lists.
-/

namespace LinkMint.Lib

def bytesOf (s : String) : List UInt8 := s.toUTF8.data.toList

/-! ## Hexadecimal -/

/-- The two low hexadecimal digits of `b`, as text. -/
def hexPair (b : UInt8) : List UInt8 :=
  [UInt8.ofNat (Nat.digitChar (b.toNat / 16)).toNat, UInt8.ofNat (Nat.digitChar (b.toNat % 16)).toNat]

def hexValue? (c : UInt8) : Option Nat :=
  if 48 ≤ c ∧ c ≤ 57 then some (c.toNat - 48)
  else if 97 ≤ c ∧ c ≤ 102 then some (c.toNat - 97 + 10)
  else if 65 ≤ c ∧ c ≤ 70 then some (c.toNat - 65 + 10)
  else none

/-- What `hex.DecodeString` has decoded when it returns, with or without an error. -/
def hexDecodeLenient : List UInt8 → List UInt8
  | a :: b :: rest =>
    match hexValue? a, hexValue? b with
    | some x, some y => UInt8.ofNat (16 * x + y) :: hexDecodeLenient rest
    | _, _ => []
  | _ => []

/-- `hex.DecodeString`, with its error dropped. -/
def hexDecode? : List UInt8 → Option (List UInt8)
  | a :: b :: rest =>
    match hexValue? a, hexValue? b with
    | some x, some y => (hexDecode? rest).map (UInt8.ofNat (16 * x + y) :: ·)
    | _, _ => none
  | [] => some []
  | [_] => none

/-! ## Base64 -/

def base64Value? (c : UInt8) : Option Nat :=
  if 65 ≤ c ∧ c ≤ 90 then some (c.toNat - 65)
  else if 97 ≤ c ∧ c ≤ 122 then some (c.toNat - 97 + 26)
  else if 48 ≤ c ∧ c ≤ 57 then some (c.toNat - 48 + 52)
  else if c = 43 then some 62
  else if c = 47 then some 63
  else none

def base64Groups? : List UInt8 → Option (List UInt8)
  | a :: b :: c :: d :: rest =>
    match base64Value? a, base64Value? b, base64Value? c, base64Value? d with
    | some w, some x, some y, some z =>
      (base64Groups? rest).map fun tail =>
        UInt8.ofNat (4 * w + x / 16) :: UInt8.ofNat (16 * (x % 16) + y / 4)
          :: UInt8.ofNat (64 * (y % 4) + z) :: tail
    | some w, some x, some y, none =>
      if d = 61 ∧ rest = [] then
        some [UInt8.ofNat (4 * w + x / 16), UInt8.ofNat (16 * (x % 16) + y / 4)]
      else none
    | some w, some x, none, _ =>
      if c = 61 ∧ d = 61 ∧ rest = [] then some [UInt8.ofNat (4 * w + x / 16)] else none
    | _, _, _, _ => none
  | [] => some []
  | _ => none

/-- `base64.StdEncoding.DecodeString`, with its error dropped. -/
def base64Decode? (s : List UInt8) : Option (List UInt8) :=
  base64Groups? (s.filter fun c => c ≠ 10 ∧ c ≠ 13)

/-! ## JSON -/

/-- One byte of a JSON string as `json.Marshal` writes it: quotes and control characters are
    escaped, and so are `<`, `>` and `&`, which HTML would read. -/
def jsonEscapeByte (b : UInt8) : List UInt8 :=
  if b = 34 ∨ b = 92 then [92, b]
  else if b = 8 then bytesOf "\\b"
  else if b = 9 then bytesOf "\\t"
  else if b = 10 then bytesOf "\\n"
  else if b = 12 then bytesOf "\\f"
  else if b = 13 then bytesOf "\\r"
  else if b < 32 ∨ b = 60 ∨ b = 62 ∨ b = 38 then bytesOf "\\u00" ++ hexPair b
  else [b]

def jsonEscape : List UInt8 → List UInt8
  | 0xE2 :: 0x80 :: 0xA8 :: rest => bytesOf "\\u2028" ++ jsonEscape rest
  | 0xE2 :: 0x80 :: 0xA9 :: rest => bytesOf "\\u2029" ++ jsonEscape rest
  | b :: rest => jsonEscapeByte b ++ jsonEscape rest
  | [] => []

def jsonString (s : List UInt8) : List UInt8 := 34 :: (jsonEscape s ++ [34])

def jsonNat (n : Nat) : List UInt8 := (Nat.toDigits 10 n).map fun c => UInt8.ofNat c.toNat

def jsonInt : Int → List UInt8
  | .ofNat n => jsonNat n
  | .negSucc n => 45 :: jsonNat (n + 1)

def jsonMember (f : String × List UInt8) : List UInt8 := jsonString (bytesOf f.1) ++ 58 :: f.2

def jsonMembers : List (String × List UInt8) → List UInt8
  | [] => [125]
  | [f] => jsonMember f ++ [125]
  | f :: g :: rest => jsonMember f ++ 44 :: jsonMembers (g :: rest)

def jsonObject (fields : List (String × List UInt8)) : List UInt8 := 123 :: jsonMembers fields

/-! ### Reading it back

An object determines its members: a string ends at its first bare quote, a number at the first byte
that is no part of one. -/

theorem bytesOf_injective : Function.Injective bytesOf := by
  intro s t h
  apply String.toByteArray_inj.mp
  apply ByteArray.ext
  exact Array.toList_inj.mp h

def unhexPair (a b : UInt8) : UInt8 :=
  UInt8.ofNat (16 * (hexValue? a).getD 0 + (hexValue? b).getD 0)

def jsonUnescape : List UInt8 → Option (List UInt8 × List UInt8)
  | [] => none
  | 34 :: rest => some ([], rest)
  | 92 :: 117 :: 50 :: 48 :: 50 :: c :: rest =>
    (jsonUnescape rest).map (·.map ([0xE2, 0x80, if c = 56 then 0xA8 else 0xA9] ++ ·) id)
  | 92 :: 117 :: 48 :: 48 :: a :: b :: rest => (jsonUnescape rest).map (·.map (unhexPair a b :: ·) id)
  | 92 :: c :: rest => (jsonUnescape rest).map (·.map (unescaped c :: ·) id)
  | b :: rest => (jsonUnescape rest).map (·.map (b :: ·) id)
where
  unescaped (c : UInt8) : UInt8 :=
    if c = 98 then 8 else if c = 116 then 9 else if c = 110 then 10 else if c = 102 then 12
    else if c = 114 then 13 else c

theorem unhexPair_hexPair (b : UInt8) : ∃ c d, hexPair b = [c, d] ∧ unhexPair c d = b := by
  refine ⟨_, _, rfl, ?_⟩
  have h : ∀ i : Fin 256, unhexPair (UInt8.ofNat (Nat.digitChar (i.val / 16)).toNat)
        (UInt8.ofNat (Nat.digitChar (i.val % 16)).toNat) = UInt8.ofNat i.val := by
    decide +kernel
  have hb := h ⟨b.toNat, b.toNat_lt⟩
  rw [UInt8.ofNat_toNat] at hb
  exact hb

theorem jsonUnescape_escapeByte {rest s t : List UInt8} (b : UInt8) (ih : jsonUnescape rest = some (s, t)) :
    jsonUnescape (jsonEscapeByte b ++ rest) = some (b :: s, t) := by
  unfold jsonEscapeByte
  split_ifs with h₁ h₂ h₃ h₄ h₅ h₆ h₇
  · rcases h₁ with rfl | rfl
    · simp [jsonUnescape, ih, jsonUnescape.unescaped]
    · simp [jsonUnescape, ih, jsonUnescape.unescaped]
  · rw [h₂, show bytesOf "\\b" = [92, 98] by decide]
    simp [jsonUnescape, ih, jsonUnescape.unescaped]
  · rw [h₃, show bytesOf "\\t" = [92, 116] by decide]
    simp [jsonUnescape, ih, jsonUnescape.unescaped]
  · rw [h₄, show bytesOf "\\n" = [92, 110] by decide]
    simp [jsonUnescape, ih, jsonUnescape.unescaped]
  · rw [h₅, show bytesOf "\\f" = [92, 102] by decide]
    simp [jsonUnescape, ih, jsonUnescape.unescaped]
  · rw [h₆, show bytesOf "\\r" = [92, 114] by decide]
    simp [jsonUnescape, ih, jsonUnescape.unescaped]
  · obtain ⟨c, d, hpair, hb⟩ := unhexPair_hexPair b
    rw [hpair, show bytesOf "\\u00" = [92, 117, 48, 48] by decide]
    simp [jsonUnescape, ih, hb]
  · obtain ⟨hquote, hslash⟩ := not_or.mp h₁
    simp [jsonUnescape, ih, hslash]

theorem jsonUnescape_jsonEscape (s t : List UInt8) : jsonUnescape (jsonEscape s ++ 34 :: t) = some (s, t) := by
  induction s using jsonEscape.induct with
  | case1 rest ih =>
    rw [jsonEscape, show bytesOf "\\u2028" = [92, 117, 50, 48, 50, 56] by decide]
    simp [jsonUnescape, ih]
  | case2 rest ih =>
    rw [jsonEscape, show bytesOf "\\u2029" = [92, 117, 50, 48, 50, 57] by decide]
    simp [jsonUnescape, ih]
  | case3 b rest h₁ h₂ ih =>
    rw [jsonEscape, List.append_assoc]
    · exact jsonUnescape_escapeByte b ih
    · exact h₁
    · exact h₂
  | case4 => simp [jsonEscape, jsonUnescape]

def Delimited (v w : List UInt8) : Prop :=
  ∀ sep t t', sep = 44 ∨ sep = 125 → v ++ sep :: t = w ++ sep :: t' → v = w ∧ t = t'

theorem jsonString_append_inj {s s' t t' : List UInt8} (h : jsonString s ++ t = jsonString s' ++ t') : s = s' ∧ t = t' := by
  have hbody : jsonEscape s ++ 34 :: t = jsonEscape s' ++ 34 :: t' := by
    simpa [jsonString] using h
  have hread := congrArg jsonUnescape hbody
  rw [jsonUnescape_jsonEscape, jsonUnescape_jsonEscape] at hread
  exact Prod.mk.inj (Option.some.inj hread)

theorem jsonString_injective : Function.Injective jsonString := by
  intro s s' h
  have happend : jsonString s ++ [] = jsonString s' ++ [] := by rw [h]
  exact (jsonString_append_inj happend).1

theorem delimited_jsonString (s s' : List UInt8) : Delimited (jsonString s) (jsonString s') := by
  intro sep t t' _ h
  obtain ⟨rfl, ht⟩ := jsonString_append_inj h
  exact ⟨rfl, (List.cons.inj ht).2⟩

theorem delimited_of_notMem {v w : List UInt8} (hv : ∀ b ∈ v, b ≠ 44 ∧ b ≠ 125)
    (hw : ∀ b ∈ w, b ≠ 44 ∧ b ≠ 125) : Delimited v w := by
  intro sep t t' hsep h
  have hout : ∀ x : List UInt8, (∀ b ∈ x, b ≠ 44 ∧ b ≠ 125) → sep ∉ x := by
    intro x hx hmem
    rcases hsep with rfl | rfl
    · exact (hx _ hmem).1 rfl
    · exact (hx _ hmem).2 rfl
  -- one value is the other and more; what is more would begin with the separator
  rcases List.append_eq_append_iff.mp h with ⟨more, hmore, htail⟩ | ⟨more, hmore, htail⟩
  · cases more with
    | nil => exact ⟨by simp [hmore], (List.cons.inj htail).2⟩
    | cons b more =>
      obtain ⟨rfl, -⟩ := List.cons.inj htail
      exact absurd (by simp [hmore]) (hout w hw)
  · cases more with
    | nil => exact ⟨by simp [hmore], (List.cons.inj htail).2.symm⟩
    | cons b more =>
      obtain ⟨rfl, -⟩ := List.cons.inj htail
      exact absurd (by simp [hmore]) (hout v hv)

theorem digit_toNat {n : Nat} {c : Char} (h : c ∈ Nat.toDigits 10 n) : 48 ≤ c.toNat ∧ c.toNat ≤ 57 :=
  Char.isDigit_iff_toNat.mp (Nat.isDigit_of_mem_toDigits (by decide) (by decide) h)

theorem jsonNat_digit {n : Nat} {b : UInt8} (h : b ∈ jsonNat n) : 48 ≤ b.toNat ∧ b.toNat ≤ 57 := by
  obtain ⟨c, hc, rfl⟩ := List.mem_map.mp h
  have hdigit := digit_toNat hc
  rw [UInt8.toNat_ofNat_of_lt' (by simp only [UInt8.size]; omega)]
  exact hdigit

theorem jsonNat_digits (n : Nat) : (jsonNat n).map (fun b => Char.ofNat b.toNat) = Nat.toDigits 10 n := by
  rw [jsonNat, List.map_map]
  conv_rhs => rw [← List.map_id (Nat.toDigits 10 n)]
  apply List.map_congr_left
  intro c hc
  have hdigit := digit_toNat hc
  simp only [Function.comp_apply, id_eq]
  rw [UInt8.toNat_ofNat_of_lt' (by simp only [UInt8.size]; omega), Char.ofNat_toNat]

theorem jsonNat_injective : Function.Injective jsonNat := by
  intro m n h
  have hdigits : Nat.toDigits 10 m = Nat.toDigits 10 n := by
    rw [← jsonNat_digits, h, jsonNat_digits]
  rw [← Nat.ofDigitChars_ten_toDigits (n := m), hdigits, Nat.ofDigitChars_ten_toDigits]

theorem jsonInt_byte {i : Int} {b : UInt8} (h : b ∈ jsonInt i) : b = 45 ∨ 48 ≤ b.toNat ∧ b.toNat ≤ 57 := by
  cases i with
  | ofNat n => exact .inr (jsonNat_digit h)
  | negSucc n =>
    rcases List.mem_cons.mp h with rfl | hdigit
    · exact .inl rfl
    · exact .inr (jsonNat_digit hdigit)

theorem jsonNat_ne_minus {m n : Nat} : jsonNat m ≠ 45 :: jsonNat n := by
  intro h
  have hminus : (45 : UInt8) ∈ jsonNat m := by simp [h]
  have hdigit := jsonNat_digit hminus
  simp at hdigit

theorem jsonInt_injective : Function.Injective jsonInt := by
  intro i j h
  cases i with
  | ofNat m =>
    cases j with
    | ofNat n => rw [jsonNat_injective h]
    | negSucc n => exact absurd h jsonNat_ne_minus
  | negSucc m =>
    cases j with
    | ofNat n => exact absurd h.symm jsonNat_ne_minus
    | negSucc n =>
      have heq := jsonNat_injective (List.cons.inj h).2
      rw [Nat.succ.inj heq]

theorem delimited_jsonInt (i j : Int) : Delimited (jsonInt i) (jsonInt j) := by
  have hout : ∀ k : Int, ∀ b ∈ jsonInt k, b ≠ 44 ∧ b ≠ 125 := by
    intro k b hb
    rcases jsonInt_byte hb with rfl | hdigit
    · decide
    · constructor
      · rintro rfl
        simp at hdigit
      · rintro rfl
        simp at hdigit
  exact delimited_of_notMem (hout i) (hout j)

theorem jsonMembers_inj {fs gs : List (String × List UInt8)}
    (hfields : List.Forall₂ (fun f g => f.1 = g.1 ∧ Delimited f.2 g.2) fs gs)
    (h : jsonMembers fs = jsonMembers gs) : fs = gs := by
  induction hfields with
  | nil => rfl
  | @cons f g fs gs hfg hrest ih =>
    obtain ⟨n, v⟩ := f
    obtain ⟨n', w⟩ := g
    obtain ⟨rfl, hdelim⟩ := hfg
    cases hrest with
    | nil =>
      simp only [jsonMembers, jsonMember, List.append_assoc, List.append_cancel_left_eq,
        List.cons_append, List.cons.injEq, true_and] at h
      obtain ⟨rfl, -⟩ := hdelim 125 [] [] (.inr rfl) h
      rfl
    | cons hfg' hrest' =>
      simp only [jsonMembers, jsonMember, List.append_assoc, List.append_cancel_left_eq,
        List.cons_append, List.cons.injEq, true_and] at h
      obtain ⟨rfl, htail⟩ := hdelim 44 _ _ (.inl rfl) h
      rw [ih htail]

end LinkMint.Lib

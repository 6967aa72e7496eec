import Mathlib.Data.List.Infix
import Mathlib.Data.UInt

set_option autoImplicit false

namespace MilliCore.Utf8

/-! ## The bytes of a string

LMDB keys and the `memmem` finder see a string through `str::as_bytes`, its UTF-8 bytes. The
bytes are those `String.toUTF8` writes, read as numbers. The encoding is brought to arithmetic
form once (`encodeUtf8_eq`); everything else follows from the shape of an encoded character: a
lead byte that is no continuation byte and gives the length, then continuation bytes. -/

def asBytes (s : String) : List ℕ :=
  s.toUTF8.data.toList.map UInt8.toNat

def encodeUtf8 (c : Char) : List ℕ :=
  (String.utf8EncodeChar c).map UInt8.toNat

/-- The encoding of a code point in arithmetic form: one byte below `0x80`, else a lead byte
    carrying the high bits and continuation bytes carrying six bits each. -/
def encodeCodePoint (v : ℕ) : List ℕ :=
  if v ≤ 0x7f then [v]
  else if v ≤ 0x7ff then [0xc0 + v / 0x40, 0x80 + v % 0x40]
  else if v ≤ 0xffff then [0xe0 + v / 0x1000, 0x80 + v / 0x40 % 0x40, 0x80 + v % 0x40]
  else [0xf0 + v / 0x40000, 0x80 + v / 0x1000 % 0x40, 0x80 + v / 0x40 % 0x40, 0x80 + v % 0x40]

def decodeCodePoint : List ℕ → ℕ
  | [a] => a
  | [a, b] => (a - 0xc0) * 0x40 + (b - 0x80)
  | [a, b, c] => (a - 0xe0) * 0x1000 + (b - 0x80) * 0x40 + (c - 0x80)
  | [a, b, c, d] => (a - 0xf0) * 0x40000 + (b - 0x80) * 0x1000 + (c - 0x80) * 0x40 + (d - 0x80)
  | _ => 0

def IsContinuation (b : ℕ) : Prop := 0x80 ≤ b ∧ b < 0xc0

def sequenceLength (lead : ℕ) : ℕ :=
  if lead < 0x80 then 1 else if lead < 0xe0 then 2 else if lead < 0xf0 then 3 else 4

theorem asBytes_eq (s : String) : asBytes s = s.toList.flatMap encodeUtf8 := by
  simp [asBytes, String.toUTF8, List.map_flatMap, String.toList]
  rfl

@[simp] theorem asBytes_append (s t : String) : asBytes (s ++ t) = asBytes s ++ asBytes t := by
  simp [asBytes_eq, String.toList]

/-! ### From the bit operations to arithmetic -/

section Bits

private theorem toNat_and_or_lead (n : ℕ) (m l : UInt8) (k a : ℕ) (hm : m.toNat = 2 ^ k - 1)
    (hl : l.toNat = 2 ^ k * a) : n &&& m.toNat ||| l.toNat = 2 ^ k * a + n % 2 ^ k := by
  rw [hm, hl, Nat.and_pow_two_sub_one_eq_mod, Nat.or_comm,
    Nat.mul_add_lt_is_or (Nat.mod_lt _ (Nat.two_pow_pos k))]

private theorem toNat_or (a b : UInt8) : (a ||| b).toNat = a.toNat ||| b.toNat :=
  BitVec.toNat_or _ _

private theorem toNat_toUInt8 (v : UInt32) : v.toUInt8.toNat = v.toNat % 256 := by
  simp [UInt32.toUInt8, Nat.toUInt8, UInt8.toNat, UInt8.ofNat]

private theorem toNat_shiftRight (v k : UInt32) (s : ℕ) (hs : k.toNat = s) (hk : s < 32) :
    (v >>> k).toNat = v.toNat / 2 ^ s := by
  subst hs
  show (v.toBitVec >>> (k % 32).toBitVec).toNat = _
  simp [BitVec.toNat_ushiftRight, Nat.shiftRight_eq_div_pow]
  rw [show (k % 32).toBitVec.toNat = k.toNat from (UInt32.toNat_mod k 32).trans (Nat.mod_eq_of_lt hk)]
  rfl

theorem toNat_lt (c : Char) : c.toNat < 0x110000 := by
  rcases c.valid with h | ⟨_, h⟩
  · exact lt_trans (UInt32.toNat_lt_of_lt (m := 0xd800) (by decide) h) (by decide)
  · exact UInt32.toNat_lt_of_lt (m := 0x110000) (by decide) h

/-- The library's bit operations write the arithmetic form. -/
theorem encodeUtf8_eq (c : Char) : encodeUtf8 c = encodeCodePoint c.toNat := by
  have hc := toNat_lt c
  have hv : c.val.toBitVec.toNat = c.toNat := rfl
  have hv' : c.val.toNat = c.toNat := rfl
  simp only [encodeUtf8, String.utf8EncodeChar, encodeCodePoint, UInt32.le_def, BitVec.le_def,
    UInt32.toBitVec_ofNat, BitVec.toNat_ofNat, Nat.reducePow, Nat.reduceMod, hv]
  split_ifs <;> simp only [List.map, toNat_or, UInt8.and_toNat, toNat_toUInt8,
    toNat_shiftRight _ 6 6 rfl (by decide), toNat_shiftRight _ 12 12 rfl (by decide),
    toNat_shiftRight _ 18 18 rfl (by decide), hv', Nat.reducePow, Nat.reduceMul,
    toNat_and_or_lead _ 63 128 6 2 rfl rfl, toNat_and_or_lead _ 31 192 5 6 rfl rfl,
    toNat_and_or_lead _ 15 224 4 14 rfl rfl, toNat_and_or_lead _ 7 240 3 30 rfl rfl,
    List.cons.injEq, and_true] <;> omega

end Bits

/-! ### The shape of an encoded character -/

section Shape
variable {v w : ℕ}

/-- An encoded scalar value is a lead byte, no continuation byte, that gives the length, then
    continuation bytes. -/
theorem encodeCodePoint_shape (hv : v < 0x110000) :
    ∃ lead rest, encodeCodePoint v = lead :: rest ∧ ¬IsContinuation lead ∧
      rest.length + 1 = sequenceLength lead ∧ ∀ b ∈ rest, IsContinuation b := by
  unfold encodeCodePoint
  split_ifs <;> refine ⟨_, _, rfl, ?_, ?_, ?_⟩ <;>
    simp only [IsContinuation, sequenceLength, List.length_cons, List.length_nil, List.mem_cons,
      List.mem_singleton, forall_eq_or_imp, forall_eq, List.not_mem_nil, false_imp_iff,
      implies_true, and_true] <;> (try split_ifs) <;> omega

theorem decodeCodePoint_encodeCodePoint (v : ℕ) : decodeCodePoint (encodeCodePoint v) = v := by
  unfold encodeCodePoint
  split_ifs <;> simp only [decodeCodePoint] <;> omega

theorem encodeCodePoint_injective (h : encodeCodePoint v = encodeCodePoint w) : v = w := by
  rw [← decodeCodePoint_encodeCodePoint v, h, decodeCodePoint_encodeCodePoint]

end Shape

section Char
variable {c d : Char}

theorem encodeUtf8_shape (c : Char) :
    ∃ lead rest, encodeUtf8 c = lead :: rest ∧ ¬IsContinuation lead ∧
      rest.length + 1 = sequenceLength lead ∧ ∀ b ∈ rest, IsContinuation b :=
  encodeUtf8_eq c ▸ encodeCodePoint_shape (toNat_lt c)

theorem encodeUtf8_injective (h : encodeUtf8 c = encodeUtf8 d) : c = d := by
  rw [encodeUtf8_eq, encodeUtf8_eq] at h
  exact Char.ext (UInt32.toNat.inj (encodeCodePoint_injective h))

/-- The encoding is prefix-free: the lead byte fixes where a character ends. -/
theorem encodeUtf8_append_inj {x y : List ℕ} (h : encodeUtf8 c ++ x = encodeUtf8 d ++ y) :
    c = d ∧ x = y := by
  obtain ⟨lc, rc, hc, -, hlc, -⟩ := encodeUtf8_shape c
  obtain ⟨ld, rd, hd, -, hld, -⟩ := encodeUtf8_shape d
  rw [hc, hd, List.cons_append, List.cons_append, List.cons.injEq] at h
  obtain ⟨rfl, h⟩ := h
  obtain ⟨hr, hxy⟩ := List.append_inj h (by omega)
  exact ⟨encodeUtf8_injective (hc.trans (hr ▸ hd.symm)), hxy⟩

theorem isContinuation_of_encodeUtf8_eq {a rest : List ℕ} {b : ℕ}
    (h : encodeUtf8 d = a ++ b :: rest) (ha : a ≠ []) : IsContinuation b := by
  obtain ⟨ld, rd, hd, -, -, hcont⟩ := encodeUtf8_shape d
  obtain ⟨a₀, a, rfl⟩ := List.exists_cons_of_ne_nil ha
  rw [hd, List.cons_append, List.cons.injEq] at h
  exact hcont b (h.2 ▸ List.mem_append_right _ (List.mem_cons_self _ _))

end Char

/-! ### Strings -/

section Strings
variable {s t : List Char}

theorem flatMap_encodeUtf8_eq_nil : s.flatMap encodeUtf8 = [] ↔ s = [] := by
  refine ⟨fun h => ?_, fun h => h ▸ rfl⟩
  cases s with
  | nil => rfl
  | cons c s =>
    obtain ⟨_, _, hc, -⟩ := encodeUtf8_shape c
    simp [hc] at h

theorem flatMap_encodeUtf8_prefix_iff :
    s.flatMap encodeUtf8 <+: t.flatMap encodeUtf8 ↔ s <+: t := by
  refine ⟨fun h => ?_, fun ⟨u, hu⟩ => ⟨u.flatMap encodeUtf8, by rw [← hu, List.flatMap_append]⟩⟩
  induction s generalizing t with
  | nil => exact List.nil_prefix
  | cons c s ih =>
    cases t with
    | nil =>
      obtain ⟨_, _, hc, -⟩ := encodeUtf8_shape c
      simp [hc] at h
    | cons d t =>
      obtain ⟨x, hx⟩ := h
      simp only [List.flatMap_cons, List.append_assoc] at hx
      obtain ⟨rfl, hrest⟩ := encodeUtf8_append_inj hx
      exact List.cons_prefix_cons.2 ⟨rfl, ih ⟨x, hrest⟩⟩

/-- A byte substring of a string's bytes that is itself a string's bytes starts at a character
    boundary: a continuation byte never opens an encoded string. -/
theorem flatMap_encodeUtf8_infix_iff :
    s.flatMap encodeUtf8 <:+: t.flatMap encodeUtf8 ↔ s <:+: t := by
  refine ⟨fun h => ?_, fun ⟨u, v, huv⟩ =>
    ⟨u.flatMap encodeUtf8, v.flatMap encodeUtf8, by rw [← huv]; simp⟩⟩
  induction t with
  | nil => exact flatMap_encodeUtf8_eq_nil.1 (List.eq_nil_of_infix_nil h) ▸ List.nil_infix
  | cons d t ih =>
    cases s with
    | nil => exact List.nil_infix
    | cons c s =>
      obtain ⟨a, x, h⟩ := h
      rcases a with _ | ⟨a₀, a⟩
      · exact (flatMap_encodeUtf8_prefix_iff.1 ⟨x, h⟩).isInfix
      · simp only [List.flatMap_cons, List.append_assoc] at h
        rcases List.append_eq_append_iff.1 h with ⟨_ | ⟨b, y⟩, hd, hy⟩ | ⟨y, -, ht⟩
        · exact List.infix_cons_iff.2 (.inr (ih ⟨[], x, by simpa using hy⟩))
        · obtain ⟨lead, rest, hc, hlead, -⟩ := encodeUtf8_shape c
          rw [hc, List.cons_append, List.cons_append, List.cons.injEq] at hy
          exact absurd (isContinuation_of_encodeUtf8_eq hd (List.cons_ne_nil _ _)) (hy.1 ▸ hlead)
        · exact List.infix_cons_iff.2 (.inr (ih ⟨y, x, by rw [ht]; simp⟩))

theorem asBytes_prefix_iff {s t : String} : asBytes s <+: asBytes t ↔ s.toList <+: t.toList := by
  rw [asBytes_eq, asBytes_eq, flatMap_encodeUtf8_prefix_iff]

theorem asBytes_infix_iff {s t : String} : asBytes s <:+: asBytes t ↔ s.toList <:+: t.toList := by
  rw [asBytes_eq, asBytes_eq, flatMap_encodeUtf8_infix_iff]

theorem asBytes_injective {s t : String} (h : asBytes s = asBytes t) : s = t := by
  have hst : s.toList <+: t.toList := asBytes_prefix_iff.1 (h ▸ List.prefix_refl (asBytes s))
  have hts : t.toList <+: s.toList := asBytes_prefix_iff.1 (h ▸ List.prefix_refl (asBytes t))
  exact String.ext (hst.eq_of_length (hst.length_le.antisymm hts.length_le))

end Strings

end MilliCore.Utf8

import ConstantDump.Proofs.Encoding.Cut

/-!
The code units that a text is written in. Main statement, `decode_units`: in each encoding,
the bytes of a text's units spell the text.
-/

namespace ConstantDump

namespace Utf16

/-- The unit of a character, or the two halves of its pair. -/
def unitsOf (c : Char) : List UInt16 :=
  if c.toNat < 0x10000 then [UInt16.ofNat c.toNat]
  else
    [ UInt16.ofNat (0xD800 + (c.toNat - 0x10000) / 0x400),
      UInt16.ofNat (0xDC00 + (c.toNat - 0x10000) % 0x400) ]

theorem toNat_lt (c : Char) : c.toNat < 0x110000 := by
  have valid := c.valid
  simp only [UInt32.isValidChar, Nat.isValidChar] at valid
  show c.val.toNat < 0x110000
  omega

theorem read_unitsOf_append (c : Char) (rest : List UInt16) :
    read (unitsOf c ++ rest) = some c :: read rest := by
  have bound := toNat_lt c
  unfold unitsOf
  split
  · rename_i single
    have value : (UInt16.ofNat c.toNat).toNat = c.toNat := UInt16.toNat_ofNat_of_lt' single
    have scalar : Text.scalar? (UInt16.ofNat c.toNat).toNat = some c := by
      rw [value, Text.scalar?_toNat]
    exact read_cut scalar [] rest
  · rename_i halves
    have lead : (UInt16.ofNat (0xD800 + (c.toNat - 0x10000) / 0x400)).toNat =
        0xD800 + (c.toNat - 0x10000) / 0x400 :=
      UInt16.toNat_ofNat_of_lt' (by show _ < 2 ^ 16; omega)
    have trail : (UInt16.ofNat (0xDC00 + (c.toNat - 0x10000) % 0x400)).toNat =
        0xDC00 + (c.toNat - 0x10000) % 0x400 :=
      UInt16.toNat_ofNat_of_lt' (by show _ < 2 ^ 16; omega)
    have together : (isLead (UInt16.ofNat (0xD800 + (c.toNat - 0x10000) / 0x400)) &&
        isTrail (UInt16.ofNat (0xDC00 + (c.toNat - 0x10000) % 0x400))) = true := by
      simp only [isLead, isTrail, Bool.and_eq_true, decide_eq_true_eq, UInt16.le_iff_toNat_le,
        lead, trail, UInt16.reduceToNat]
      omega
    have value : 0x10000 + (0xD800 + (c.toNat - 0x10000) / 0x400 - 0xD800) * 0x400 +
        (0xDC00 + (c.toNat - 0x10000) % 0x400 - 0xDC00) = c.toNat := by
      omega
    simp only [List.cons_append, List.nil_append, read, together, ↓reduceIte, pair, lead, trail,
      value, Text.scalar?_toNat]

theorem read_unitsOf (t : Text) : read (t.flatMap unitsOf) = t.map some := by
  induction t with
  | nil => rfl
  | cons c t ih => rw [List.flatMap_cons, read_unitsOf_append, ih, List.map_cons]

end Utf16

namespace Encoding

/-! ## Units in bytes -/

theorem length_toBytes (width n : Nat) : (toBytes width n).length = width := by
  induction width generalizing n with
  | zero => rfl
  | succ width ih => rw [toBytes, List.length_cons, ih]

theorem ofBytes_toBytes {width n : Nat} (h : n < Nat.pow 256 width) :
    ofBytes (toBytes width n) = n := by
  induction width generalizing n with
  | zero =>
    have none : n < 1 := h
    simp only [toBytes, ofBytes]
    omega
  | succ width ih =>
    have first : n < Nat.pow 256 width * 256 := h
    rw [toBytes, ofBytes, ih (Nat.div_lt_of_lt_mul (by omega))]
    simp
    omega

theorem length_flatMap_toBytes (width : Nat) (units : List Nat) :
    (units.flatMap (toBytes width)).length = units.length * width := by
  induction units with
  | nil => simp
  | cons u units ih =>
    rw [List.flatMap_cons, List.length_append, length_toBytes, ih, List.length_cons,
      Nat.succ_mul, Nat.add_comm]

theorem units16_toBytes (units : List UInt16) :
    units16 (units.flatMap fun u => toBytes 2 u.toNat) = units := by
  induction units with
  | nil => rfl
  | cons u units ih =>
    have value : ofBytes (toBytes 2 u.toNat) = u.toNat := ofBytes_toBytes u.toNat_lt
    have first : units16 (toBytes 2 u.toNat) = [u] := by
      show [UInt16.ofNat (ofBytes (toBytes 2 u.toNat))] = [u]
      rw [value, UInt16.ofNat_toNat]
    rw [List.flatMap_cons, units16_append ⟨1, length_toBytes 2 _⟩, first, ih]
    rfl

theorem units32_toBytes {units : List Nat} (h : ∀ u ∈ units, u < Nat.pow 256 4) :
    units32 (units.flatMap (toBytes 4)) = units := by
  induction units with
  | nil => rfl
  | cons u units ih =>
    obtain ⟨here, others⟩ := List.forall_mem_cons.1 h
    have first : units32 (toBytes 4 u) = [u] := by
      show [ofBytes (toBytes 4 u)] = [u]
      rw [ofBytes_toBytes here]
    rw [List.flatMap_cons, units32_append ⟨1, length_toBytes 4 _⟩, first, ih others]
    rfl

/-! ## The units of a text -/

def units : Encoding → Text → List Nat
  | .utf8, t => (Utf8.encode t).map UInt8.toNat
  | .utf16, t => (t.flatMap Utf16.unitsOf).map UInt16.toNat
  | .utf32, t => t.map Char.toNat

theorem units_lt {encoding : Encoding} {t : Text} :
    ∀ u ∈ encoding.units t, u < Nat.pow 256 encoding.unitWidth := by
  cases encoding with
  | utf8 =>
    intro u hu
    obtain ⟨byte, -, rfl⟩ := List.mem_map.1 hu
    exact byte.toNat_lt
  | utf16 =>
    intro u hu
    obtain ⟨unit, -, rfl⟩ := List.mem_map.1 hu
    exact unit.toNat_lt
  | utf32 =>
    intro u hu
    obtain ⟨c, -, rfl⟩ := List.mem_map.1 hu
    have := Utf16.toNat_lt c
    show c.toNat < 4294967296
    omega

theorem mapM_map_inverse {α : Type} {f : α → Option Char} {g : Char → α}
    (h : ∀ c, f (g c) = some c) (t : Text) : (t.map g).mapM f = some t := by
  induction t with
  | nil => rfl
  | cons c t ih => simp [List.mapM_cons, h, ih]

/-- The bytes of a text's units spell the text. -/
theorem decode_units (encoding : Encoding) (t : Text) :
    encoding.decode ((encoding.units t).flatMap (toBytes encoding.unitWidth)) = some t := by
  cases encoding with
  | utf8 =>
    have bytes : ((Utf8.encode t).map UInt8.toNat).flatMap (toBytes 1) = Utf8.encode t := by
      rw [List.flatMap_map]
      simp [toBytes]
    show Utf8.decode _ = some t
    rw [units, unitWidth, bytes, Utf8.decode_encode]
  | utf16 =>
    rw [units, unitWidth, decode, if_pos (by rw [length_flatMap_toBytes, Nat.mul_mod_left]),
      List.flatMap_map, units16_toBytes, Utf16.decode, Utf16.read_unitsOf]
    exact mapM_map_inverse (f := id) (g := some) (fun _ => rfl) t
  | utf32 =>
    have units_of : units32 ((t.map Char.toNat).flatMap (toBytes 4)) = t.map Char.toNat :=
      units32_toBytes (@units_lt .utf32 t)
    rw [units, unitWidth, decode, if_pos (by rw [length_flatMap_toBytes, Nat.mul_mod_left]),
      units_of]
    exact mapM_map_inverse Text.scalar?_toNat t

end Encoding

end ConstantDump

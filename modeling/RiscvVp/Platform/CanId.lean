/-
# RiscvVp.Platform.CanId -- identifiers of CAN frames in the buffers of the controller

`mcp2515_id_to_buf` scatters an identifier over four bytes and `mcp2515_buf_to_id` puts it together
again by additions; a flag in the second byte tells extended identifiers from standard ones.  The
fields are described as quotients and remainders of the identifier as a number.
-/
import RiscvVp.Lib.Mask

namespace RiscvVp.Can

set_option autoImplicit false

open Lib

/-- The bytes of an identifier are numbered from 0. -/
scoped instance neZeroFour : NeZero 4 := ⟨by decide⟩

/-- The four bytes: `MCP_SIDH`, `MCP_SIDL`, `MCP_EID8` and `MCP_EID0`. -/
abbrev IdField := Fin 4 → BitVec 8

/-- The bits of `MCP_SIDL` in an extended identifier, from its upper half. -/
def extendedSidl (canid : BitVec 16) : BitVec 8 :=
  ((canid &&& 0x03).setWidth 8 + ((canid &&& 0x1C) <<< 3).setWidth 8) ||| 0x08

/-- `CAN::mcp2515_id_to_buf`. -/
def mcp2515IdToBuf (id : BitVec 64) (extended : Bool) : IdField :=
  let canid : BitVec 16 := (id &&& 0x0FFFF).setWidth 16
  if extended then
    let upper : BitVec 16 := (id >>> 16).setWidth 16
    fun
      | 0 => (upper >>> 5).setWidth 8
      | 1 => extendedSidl upper
      | 2 => (canid >>> 8).setWidth 8
      | 3 => (canid &&& 0xFF).setWidth 8
  else
    fun
      | 0 => (canid >>> 3).setWidth 8
      | 1 => ((canid &&& 0x07) <<< 5).setWidth 8
      | 2 => 0
      | 3 => 0

/-- `CAN::mcp2515_buf_to_id`: the identifier and whether it is an extended one. -/
def mcp2515BufToId (idField : IdField) : BitVec 32 × Bool :=
  let id : BitVec 32 := ((idField 0).setWidth 32 <<< 3) + ((idField 1).setWidth 32 >>> 5)
  if idField 1 &&& 0x08 = 0x08 then
    let id := (id <<< 2) + (idField 1 &&& 0x03).setWidth 32
    let id := (id <<< 8) + (idField 2).setWidth 32
    let id := (id <<< 8) + (idField 3).setWidth 32
    (id, true)
  else (id, false)

variable {id : BitVec 64} {canid : BitVec 16}

/-! ## The byte with the flag -/

/-- A mask of the low bits looks at these bits only. -/
theorem and_low {k : Nat} {mask : BitVec 16} (low : (mask.setWidth k).setWidth 16 = mask) :
    canid &&& mask = (canid.setWidth k).setWidth 16 &&& mask := by
  ext i inside
  have bit := congrArg (BitVec.getLsbD · i) low
  simp only [BitVec.getLsbD_setWidth, decide_eq_true inside, Bool.true_and] at bit
  rw [← BitVec.getLsbD_eq_getElem, ← BitVec.getLsbD_eq_getElem, BitVec.getLsbD_and, BitVec.getLsbD_and, ← bit,
    BitVec.getLsbD_setWidth, BitVec.getLsbD_setWidth, decide_eq_true inside, Bool.true_and]
  cases decide (i < k) with
  | true => simp
  | false => simp

/-- The three fields of `MCP_SIDL` are apart. -/
theorem extendedSidl_fields : extendedSidl canid &&& 0x08 = 0x08 ∧
    (extendedSidl canid).toNat / 2 ^ 5 = canid.toNat / 4 % 8 ∧
    (extendedSidl canid &&& 0x03).toNat = canid.toNat % 4 := by
  have cut : extendedSidl canid = extendedSidl ((canid.setWidth 5).setWidth 16) := by
    unfold extendedSidl
    have first : canid &&& 0x03 = (canid.setWidth 5).setWidth 16 &&& 0x03 := and_low (by decide)
    have second : canid &&& 0x1C = (canid.setWidth 5).setWidth 16 &&& 0x1C := and_low (by decide)
    rw [first, second]
  have fields : ∀ low : BitVec 5, extendedSidl (low.setWidth 16) &&& 0x08 = 0x08 ∧
      (extendedSidl (low.setWidth 16)).toNat / 2 ^ 5 = low.toNat / 4 ∧
      (extendedSidl (low.setWidth 16) &&& 0x03).toNat = low.toNat % 4 := by decide
  obtain ⟨flag, high, low⟩ := fields (canid.setWidth 5)
  rw [BitVec.toNat_setWidth] at high low
  rw [cut]
  exact ⟨flag, by omega, by omega⟩

/-- `MCP_SIDL` of a standard identifier. -/
theorem standardSidl_fields : ((canid &&& 0x07) <<< 5).setWidth 8 &&& 0x08 ≠ (0x08 : BitVec 8) ∧
    (((canid &&& 0x07) <<< 5).setWidth 8).toNat / 2 ^ 5 = canid.toNat % 8 := by
  have fields : ∀ low : BitVec 3, ((low.setWidth 16 &&& 0x07) <<< 5).setWidth 8 &&& 0x08 ≠ (0x08 : BitVec 8) ∧
      (((low.setWidth 16 &&& 0x07#16) <<< 5).setWidth 8).toNat / 2 ^ 5 = low.toNat := by decide
  obtain ⟨flag, high⟩ := fields (canid.setWidth 3)
  have low : canid &&& 0x07 = (canid.setWidth 3).setWidth 16 &&& 0x07 := and_low (by decide)
  rw [low]
  rw [BitVec.toNat_setWidth] at high
  exact ⟨flag, high⟩

/-! ## Putting the bytes together -/

section Decode

variable {f : IdField}

theorem bufToId_standard (flag : f 1 &&& 0x08 ≠ 0x08) :
    mcp2515BufToId f = (BitVec.ofNat 32 ((f 0).toNat * 8 + (f 1).toNat / 2 ^ 5), false) := by
  have first := (f 0).isLt
  have second := (f 1).isLt
  unfold mcp2515BufToId
  dsimp only
  rw [if_neg flag]
  refine Prod.ext (BitVec.eq_of_toNat_eq ?_) rfl
  simp only [BitVec.toNat_add, BitVec.toNat_shiftLeft, BitVec.toNat_ushiftRight, BitVec.toNat_setWidth,
    BitVec.toNat_ofNat, Nat.shiftLeft_eq, Nat.shiftRight_eq_div_pow]
  omega

theorem bufToId_extended (flag : f 1 &&& 0x08 = 0x08) : mcp2515BufToId f =
    (BitVec.ofNat 32 (((((f 0).toNat * 8 + (f 1).toNat / 2 ^ 5) * 4 + (f 1 &&& 0x03).toNat) * 256 +
      (f 2).toNat) * 256 + (f 3).toNat), true) := by
  have first := (f 0).isLt
  have second := (f 1).isLt
  have third := (f 2).isLt
  have fourth := (f 3).isLt
  have low := (f 1 &&& 0x03).isLt
  unfold mcp2515BufToId
  dsimp only
  rw [if_pos flag]
  refine Prod.ext (BitVec.eq_of_toNat_eq ?_) rfl
  generalize (f 1 &&& 0x03) = bits at *
  simp only [BitVec.toNat_add, BitVec.toNat_shiftLeft, BitVec.toNat_ushiftRight, BitVec.toNat_setWidth,
    BitVec.toNat_ofNat, Nat.shiftLeft_eq, Nat.shiftRight_eq_div_pow]
  omega

end Decode

/-! ## The round trip -/

theorem lower_toNat : ((id &&& 0x0FFFF).setWidth 16).toNat = id.toNat % 2 ^ 16 := by
  change ((id &&& ((1#64 <<< 16) - 1#64)).setWidth 16).toNat = _
  rw [BitVec.toNat_setWidth, and_mask_toNat id (by decide), Nat.mod_mod]

theorem upper_toNat : ((id >>> 16).setWidth 16).toNat = id.toNat / 2 ^ 16 % 2 ^ 16 := by
  rw [BitVec.toNat_setWidth, BitVec.toNat_ushiftRight, Nat.shiftRight_eq_div_pow]

theorem standard_roundTrip (small : id.toNat < 2 ^ 11) :
    mcp2515BufToId (mcp2515IdToBuf id false) = (id.setWidth 32, false) := by
  obtain ⟨flag, low⟩ := @standardSidl_fields ((id &&& 0x0FFFF).setWidth 16)
  have high : (mcp2515IdToBuf id false 0).toNat = id.toNat / 2 ^ 3 := by
    change ((((id &&& 0x0FFFF).setWidth 16) >>> 3).setWidth 8).toNat = _
    rw [BitVec.toNat_setWidth, BitVec.toNat_ushiftRight, lower_toNat, Nat.shiftRight_eq_div_pow]
    omega
  have rest : (mcp2515IdToBuf id false 1).toNat / 2 ^ 5 = id.toNat % 8 := by
    refine low.trans ?_
    rw [lower_toNat]
    omega
  rw [bufToId_standard flag, high, rest]
  refine Prod.ext (BitVec.eq_of_toNat_eq ?_) rfl
  rw [BitVec.toNat_ofNat, BitVec.toNat_setWidth]
  omega

theorem extended_roundTrip (small : id.toNat < 2 ^ 29) :
    mcp2515BufToId (mcp2515IdToBuf id true) = (id.setWidth 32, true) := by
  obtain ⟨flag, middle, low⟩ := @extendedSidl_fields ((id >>> 16).setWidth 16)
  have first : (mcp2515IdToBuf id true 0).toNat = id.toNat / 2 ^ 21 := by
    change ((((id >>> 16).setWidth 16) >>> 5).setWidth 8).toNat = _
    rw [BitVec.toNat_setWidth, BitVec.toNat_ushiftRight, upper_toNat, Nat.shiftRight_eq_div_pow]
    omega
  have second : (mcp2515IdToBuf id true 1).toNat / 2 ^ 5 = id.toNat / 2 ^ 18 % 8 := by
    refine middle.trans ?_
    rw [upper_toNat]
    omega
  have third : (mcp2515IdToBuf id true 1 &&& 0x03).toNat = id.toNat / 2 ^ 16 % 4 := by
    refine low.trans ?_
    rw [upper_toNat]
    omega
  have fourth : (mcp2515IdToBuf id true 2).toNat = id.toNat / 2 ^ 8 % 2 ^ 8 := by
    change ((((id &&& 0x0FFFF).setWidth 16) >>> 8).setWidth 8).toNat = _
    rw [BitVec.toNat_setWidth, BitVec.toNat_ushiftRight, lower_toNat, Nat.shiftRight_eq_div_pow]
    omega
  have fifth : (mcp2515IdToBuf id true 3).toNat = id.toNat % 2 ^ 8 := by
    change ((((id &&& 0x0FFFF).setWidth 16) &&& ((1#16 <<< 8) - 1#16)).setWidth 8).toNat = _
    rw [BitVec.toNat_setWidth, and_mask_toNat _ (by decide), lower_toNat]
    omega
  rw [bufToId_extended flag, first, second, third, fourth, fifth]
  refine Prod.ext (BitVec.eq_of_toNat_eq ?_) rfl
  rw [BitVec.toNat_ofNat, BitVec.toNat_setWidth]
  omega

/-- Identifiers come back with their kind, and no bytes stand for identifiers of both kinds. -/
theorem id_roundTrip (id id' : BitVec 64) (small : id.toNat < 2 ^ 11) (small' : id'.toNat < 2 ^ 29) :
    mcp2515BufToId (mcp2515IdToBuf id false) = (id.setWidth 32, false) ∧
    mcp2515BufToId (mcp2515IdToBuf id' true) = (id'.setWidth 32, true) ∧
    mcp2515IdToBuf id false ≠ mcp2515IdToBuf id' true := by
  refine ⟨standard_roundTrip small, extended_roundTrip small', fun same => ?_⟩
  have kinds := congrArg (Prod.snd ∘ mcp2515BufToId) same
  simp only [Function.comp_apply, standard_roundTrip small, extended_roundTrip small'] at kinds
  cases kinds

/-- The largest ones. -/
theorem id_roundTrip_max : mcp2515BufToId (mcp2515IdToBuf 0x7ff false) = (0x7ff, false) ∧
    mcp2515BufToId (mcp2515IdToBuf 0x1fffffff true) = (0x1fffffff, true) ∧
    mcp2515IdToBuf 0x7ff false ≠ mcp2515IdToBuf 0x1fffffff true :=
  id_roundTrip 0x7ff 0x1fffffff (by decide) (by decide)

end RiscvVp.Can

/-
# RiscvVp.Lib.View -- a memory seen through a table

A table sends some addresses to others, no two to the same.  What a program sees through it is a
memory of its own: where neighbours go to neighbours, the words there are those of the memory behind
it, and a word that is written behind it is written.
-/
import RiscvVp.Lib.ByteMemory

namespace RiscvVp.Lib

set_option autoImplicit false

/-- Where the addresses go. -/
structure Table where
  place : BitVec 64 → Option (BitVec 64)
  injective : ∀ ⦃a b p⦄, place a = some p → place b = some p → a = b

namespace Table

variable {table : Table} {m : ByteMemory} {a p : BitVec 64} {n : Nat}

/-- What is seen of a memory; the other addresses show zeros. -/
def view (table : Table) (m : ByteMemory) : ByteMemory := fun a =>
  match table.place a with
  | some p => m p
  | none => 0

theorem view_of_place (goes : table.place a = some p) : table.view m a = m p := by
  simp [view, goes]

theorem view_of_none (nowhere : table.place a = none) : table.view m a = 0 := by
  simp [view, nowhere]

theorem some_injective ⦃a b p : BitVec 64⦄ (first : some a = some p) (second : some b = some p) : a = b :=
  Option.some.inj (first.trans second.symm)

/-- Every address goes to itself. -/
def all : Table := ⟨some, some_injective⟩

/-- The `n` addresses from `a` on go to those from `p` on. -/
def Straight (table : Table) (a p : BitVec 64) (n : Nat) : Prop :=
  ∀ k < n, table.place (a + .ofNat 64 k) = some (p + .ofNat 64 k)

instance (table : Table) (a p : BitVec 64) (n : Nat) : Decidable (table.Straight a p n) :=
  inferInstanceAs (Decidable (∀ k < n, _))

theorem view_read (straight : table.Straight a p n) : (table.view m).read a n = m.read p n :=
  ByteMemory.read_congr fun k inside => view_of_place (straight k inside)

/-- The byte at `a` is `k` bytes behind the start of a word. -/
theorem sub_toNat_of_add {b q : BitVec 64} {k : Nat} (short : k < 2 ^ 64) (at_ : b = q + .ofNat 64 k) :
    (b - q).toNat = k := by
  rw [at_, BitVec.add_comm, BitVec.add_sub_cancel, BitVec.toNat_ofNat, Nat.mod_eq_of_lt short]

theorem view_write (straight : table.Straight a p n) (value : BitVec (8 * n)) :
    table.view (m.write p n value) = (table.view m).write a n value := by
  funext b
  cases goes : table.place b with
  | none =>
    have outside : ¬ (b - a).toNat < n := by
      intro near
      have here := straight _ near
      rw [ByteMemory.add_offset, goes] at here
      cases here
    rw [view_of_none goes]
    exact ((if_neg outside).trans (view_of_none goes)).symm
  | some q =>
    rw [view_of_place goes]
    by_cases near : (b - a).toNat < n
    · have here := straight _ near
      rw [ByteMemory.add_offset, goes, Option.some.injEq] at here
      have same : (q - p).toNat = (b - a).toNat := sub_toNat_of_add (b - a).isLt here
      have near' : (q - p).toNat < n := same ▸ near
      refine (if_pos near').trans (Eq.trans ?_ (if_pos near).symm)
      rw [same]
    · have far : ¬ (q - p).toNat < n := by
        intro near'
        have there := straight _ near'
        rw [ByteMemory.add_offset] at there
        have at_ := table.injective goes there
        exact near (sub_toNat_of_add (q - p).isLt at_ ▸ near')
      exact (if_neg far).trans ((if_neg near).trans (view_of_place goes)).symm

end Table

end RiscvVp.Lib

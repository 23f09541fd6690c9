/-
Clearance levels.

A level from L0 to L4 says how intrusive a scan of an object may be.  A bound of
an edge is an optional level: `clampTo` lowers a level to the bound and leaves
it alone where there is none.

Levels are a linear order with five elements, so that the greatest lower bound of two of
them is the lower one.  Statements about bounds are all made of `clampTo` and `lowest?`,
and these of the order.
-/

namespace ScanGraph

inductive Level where
  | l0
  | l1
  | l2
  | l3
  | l4
deriving DecidableEq, Repr, Inhabited

namespace Level

/-! ## Numbers -/

def number : Level → Nat
  | l0 => 0
  | l1 => 1
  | l2 => 2
  | l3 => 3
  | l4 => 4

/-- The levels in ascending order. -/
def all : List Level :=
  [l0, l1, l2, l3, l4]

/-- The level with the given number. -/
def ofNat? (n : Nat) : Option Level :=
  all[n]?

theorem ofNat?_number (l : Level) : ofNat? l.number = some l := by
  cases l <;> rfl

theorem number_inj {a b : Level} (h : a.number = b.number) : a = b :=
  Option.some.inj (by rw [← ofNat?_number a, ← ofNat?_number b, h])

/-- The level as text. -/
def name : Level → String
  | l0 => "L0"
  | l1 => "L1"
  | l2 => "L2"
  | l3 => "L3"
  | l4 => "L4"

/-! ## Order -/

instance : LE Level :=
  ⟨fun a b => a.number ≤ b.number⟩

instance : LT Level :=
  ⟨fun a b => a.number < b.number⟩

instance : DecidableLE Level :=
  fun a b => inferInstanceAs (Decidable (a.number ≤ b.number))

instance : DecidableLT Level :=
  fun a b => inferInstanceAs (Decidable (a.number < b.number))

theorem le_refl (a : Level) : a ≤ a :=
  Nat.le_refl _

theorem le_of_eq {a b : Level} (h : a = b) : a ≤ b :=
  h ▸ le_refl a

theorem le_trans {a b c : Level} (hab : a ≤ b) (hbc : b ≤ c) : a ≤ c :=
  Nat.le_trans hab hbc

theorem le_antisymm {a b : Level} (hab : a ≤ b) (hba : b ≤ a) : a = b :=
  number_inj (Nat.le_antisymm hab hba)

theorem le_total (a b : Level) : a ≤ b ∨ b ≤ a :=
  Nat.le_total _ _

@[simp] theorem not_le {a b : Level} : ¬ a ≤ b ↔ b < a :=
  Nat.not_le

@[simp] theorem not_lt {a b : Level} : ¬ a < b ↔ b ≤ a :=
  Nat.not_lt

theorem l0_le (a : Level) : l0 ≤ a :=
  Nat.zero_le _

theorem le_l0_iff {a : Level} : a ≤ l0 ↔ a = l0 :=
  ⟨fun h => le_antisymm h (l0_le a), fun h => h ▸ le_refl l0⟩

def highest : Level := l4

/-- The lower of two levels. -/
def lower (a b : Level) : Level :=
  if a ≤ b then a else b

theorem le_lower_iff {a b c : Level} : c ≤ lower a b ↔ c ≤ a ∧ c ≤ b := by
  unfold lower
  split
  · rename_i hab
    exact ⟨fun h => ⟨h, le_trans h hab⟩, And.left⟩
  · rename_i hab
    have hba : b ≤ a := (le_total a b).resolve_left hab
    exact ⟨fun h => ⟨le_trans h hba, h⟩, And.right⟩

/-! ## Bounds -/

/-- The level lowered to a bound, if there is one. -/
def clampTo (l : Level) : Option Level → Level
  | some bound => lower l bound
  | none => l

/-- The lowest of the bounds that are present. -/
def lowest? : List (Option Level) → Option Level
  | [] => none
  | none :: rest => lowest? rest
  | some b :: rest => some (match lowest? rest with
      | some c => lower b c
      | none => b)

end Level

end ScanGraph

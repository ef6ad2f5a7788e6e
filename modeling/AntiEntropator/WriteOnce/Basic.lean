import Mathlib.Logic.Function.Basic

/-!
# Write-once maps

A map in which a key, once it has a value, keeps it: the only update is
`create`, which does nothing when the key is taken.  `Extends` is the order in
which such maps grow.
-/

universe u v

/-- A partial map written only through `create`. -/
abbrev WriteOnce (Key : Type u) (Value : Type v) := Key → Option Value

namespace WriteOnce

variable {Key : Type u} {Value : Type v}

def Extends (store later : WriteOnce Key Value) : Prop :=
  ∀ key value, store key = some value → later key = some value

theorem Extends.refl (store : WriteOnce Key Value) : Extends store store := fun _ _ held => held

theorem Extends.trans {first second third : WriteOnce Key Value}
    (before : Extends first second) (after : Extends second third) : Extends first third :=
  fun key value held => after key value (before key value held)

variable [DecidableEq Key]

def create (store : WriteOnce Key Value) (key : Key) (value : Value) : WriteOnce Key Value :=
  match store key with
  | none => Function.update store key (some value)
  | some _ => store

theorem create_of_free {store : WriteOnce Key Value} {key : Key} (free : store key = none)
    (value : Value) : store.create key value = Function.update store key (some value) := by
  simp [create, free]

theorem create_of_taken {store : WriteOnce Key Value} {key : Key} {held : Value}
    (taken : store key = some held) (value : Value) : store.create key value = store := by
  simp [create, taken]

theorem extends_create (store : WriteOnce Key Value) (key : Key) (value : Value) :
    Extends store (store.create key value) := by
  intro other held stored
  cases slot : store key with
  | none =>
      have different : other ≠ key := by
        rintro rfl
        simp [slot] at stored
      rw [create_of_free slot, Function.update_of_ne different]
      exact stored
  | some value => rwa [create_of_taken slot]

theorem create_eq_some {store : WriteOnce Key Value} {key other : Key} {value held : Value}
    (stored : store.create key value other = some held) :
    store other = some held ∨ (store key = none ∧ other = key ∧ held = value) := by
  cases slot : store key with
  | none =>
      rw [create_of_free slot] at stored
      by_cases same : other = key
      · subst other
        rw [Function.update_self, Option.some.injEq] at stored
        exact .inr ⟨rfl, rfl, stored.symm⟩
      · rw [Function.update_of_ne same] at stored
        exact .inl stored
  | some taken =>
      rw [create_of_taken slot] at stored
      exact .inl stored

theorem create_self {store : WriteOnce Key Value} {key : Key} (free : store key = none)
    (value : Value) : store.create key value key = some value := by
  rw [create_of_free free, Function.update_self]

end WriteOnce

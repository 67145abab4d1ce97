/-!
# Tables

A table is a list of keys with values, in the order the keys came in.  Setting a
key that is there keeps its place, and a new key goes to the end.
-/

namespace Shipment

/-- Values by key. -/
abbrev Table (κ α : Type) := List (κ × α)

namespace Table

variable {κ α : Type} [DecidableEq κ]

/-- The value of a key. -/
def get? (key : κ) : Table κ α → Option α
  | [] => none
  | (k, v) :: t => if k = key then some v else get? key t

/-- Whether a key has a value. -/
def has (key : κ) (t : Table κ α) : Bool := (t.get? key).isSome

/-- Set the value of a key. -/
def set (key : κ) (value : α) : Table κ α → Table κ α
  | [] => [(key, value)]
  | (k, v) :: t => if k = key then (k, value) :: t else (k, v) :: set key value t

/-- Drop a key. -/
def erase (key : κ) (t : Table κ α) : Table κ α := t.filter fun entry => decide (entry.1 ≠ key)

theorem get?_set (key k : κ) (value : α) (t : Table κ α) :
    (set key value t).get? k = if k = key then some value else t.get? k := by
  induction t with
  | nil =>
      by_cases h : key = k
      · simp [set, get?, h]
      · simp [set, get?, h, Ne.symm h]
  | cons entry t ih =>
      by_cases h : entry.1 = key
      · by_cases hk : k = key
        · simp [set, get?, h, hk]
        · simp [set, get?, h, hk, Ne.symm hk]
      · by_cases hk : entry.1 = k
        · have : k ≠ key := fun e => h (hk.trans e)
          simp [set, get?, hk, this]
        · simp [set, get?, h, hk, ih]

theorem get?_erase (key k : κ) (t : Table κ α) :
    (erase key t).get? k = if k = key then none else t.get? k := by
  induction t with
  | nil => simp [erase, get?]
  | cons entry t ih =>
      unfold erase at ih ⊢
      rw [List.filter_cons]
      by_cases h : entry.1 = key
      · rw [if_neg (by simp [h]), ih]
        by_cases hk : k = key
        · simp [hk]
        · simp [get?, h, hk, Ne.symm hk]
      · rw [if_pos (by simp [h])]
        by_cases hk : entry.1 = k
        · have : k ≠ key := fun e => h (hk.trans e)
          simp [get?, hk, this]
        · simp only [get?, if_neg hk]
          exact ih

@[simp] theorem get?_set_self (key : κ) (value : α) (t : Table κ α) :
    (set key value t).get? key = some value := by
  rw [get?_set, if_pos rfl]

theorem get?_set_of_ne {key k : κ} (h : key ≠ k) (value : α) (t : Table κ α) :
    (set key value t).get? k = t.get? k := by
  rw [get?_set, if_neg (Ne.symm h)]

/-- Setting a key to the value it has changes nothing. -/
theorem set_of_get? {key : κ} {value : α} {t : Table κ α} (h : t.get? key = some value) :
    t.set key value = t := by
  induction t with
  | nil => cases h
  | cons entry t ih =>
      unfold get? at h
      unfold set
      by_cases hk : entry.1 = key
      · rw [if_pos hk] at h ⊢
        cases h
        cases hk
        rfl
      · rw [if_neg hk] at h ⊢
        rw [ih h]

theorem set_set (key : κ) (value value' : α) (t : Table κ α) :
    (t.set key value).set key value' = t.set key value' := by
  induction t with
  | nil => simp only [set, if_pos]
  | cons entry t ih =>
      by_cases hk : entry.1 = key
      · simp only [set, if_pos hk]
      · simp only [set, if_neg hk, ih]

/-- Dropping a key that was just set to a table without it. -/
theorem erase_set {key : κ} {t : Table κ α} (h : t.get? key = none) (value : α) :
    (t.set key value).erase key = t := by
  induction t with
  | nil => simp [set, erase]
  | cons entry t ih =>
      unfold get? at h
      by_cases hk : entry.1 = key
      · rw [if_pos hk] at h
        cases h
      · rw [if_neg hk] at h
        have := ih h
        unfold erase at this ⊢
        rw [set, if_neg hk, List.filter_cons, if_pos (by simpa using hk), this]

theorem has_eq_true {key : κ} {t : Table κ α} :
    t.has key = true ↔ ∃ value, t.get? key = some value :=
  Option.isSome_iff_exists

theorem has_eq_false {key : κ} {t : Table κ α} : t.has key = false ↔ t.get? key = none := by
  rw [has, Option.isSome_eq_false_iff, Option.isNone_iff_eq_none]

end Table

end Shipment

/-
Module: FameZ.Lib.OrderedDict
Purpose: Insertion-ordered dictionaries whose keys are distinct by
  construction, with the lookup laws of assignment and deletion.
Trusted boundary: none
Main exports: OrderedDict, get?, set, del, get?_set, get?_del, mem_values_iff
-/
import Mathlib.Data.List.Nodup

/-- An insertion-ordered dictionary.  Repeated keys cannot be built. -/
structure OrderedDict (κ ν : Type*) where
  entries : List (κ × ν)
  nodup : (entries.map Prod.fst).Nodup

namespace OrderedDict

variable {κ ν : Type*}

@[ext] theorem ext {first second : OrderedDict κ ν}
    (same : first.entries = second.entries) : first = second := by
  cases first
  cases second
  cases same
  rfl

instance [DecidableEq κ] [DecidableEq ν] : DecidableEq (OrderedDict κ ν) :=
  fun first second =>
    decidable_of_iff (first.entries = second.entries)
      ⟨ext, fun same => same ▸ rfl⟩

def empty : OrderedDict κ ν := ⟨[], List.nodup_nil⟩

def keys (dict : OrderedDict κ ν) : List κ := dict.entries.map Prod.fst

def values (dict : OrderedDict κ ν) : List ν := dict.entries.map Prod.snd

def size (dict : OrderedDict κ ν) : Nat := dict.entries.length

theorem size_eq_length_keys (dict : OrderedDict κ ν) :
    dict.size = dict.keys.length := by
  simp [size, keys]

variable [DecidableEq κ]

/-- Lookup without an error for a missing key. -/
def get? (dict : OrderedDict κ ν) (key : κ) : Option ν :=
  (dict.entries.find? fun entry => decide (entry.1 = key)).map Prod.snd

/-- Assignment keeps the position of an existing key. -/
def setEntries (key : κ) (value : ν) : List (κ × ν) → List (κ × ν)
  | [] => [(key, value)]
  | entry :: rest =>
      if entry.1 = key then (key, value) :: rest
      else entry :: setEntries key value rest

theorem map_fst_setEntries (key : κ) (value : ν) (entries : List (κ × ν)) :
    (setEntries key value entries).map Prod.fst =
      if key ∈ entries.map Prod.fst then entries.map Prod.fst
      else entries.map Prod.fst ++ [key] := by
  induction entries with
  | nil => rfl
  | cons entry rest inductionHypothesis =>
      by_cases same : entry.1 = key
      · simp [setEntries, same]
      · have other : ¬ key = entry.1 := fun equal => same equal.symm
        rw [setEntries, if_neg same, List.map_cons, inductionHypothesis]
        by_cases inside : key ∈ rest.map Prod.fst <;>
          simp [inside, other]

def set (dict : OrderedDict κ ν) (key : κ) (value : ν) :
    OrderedDict κ ν where
  entries := setEntries key value dict.entries
  nodup := by
    rw [map_fst_setEntries]
    split
    · exact dict.nodup
    · rename_i absent
      exact List.nodup_append.mpr
        ⟨dict.nodup, List.nodup_singleton key, by
          intro old member new newMember equal
          rw [List.mem_singleton] at newMember
          exact absent (newMember ▸ equal ▸ member)⟩

/-- Deletion; a missing key leaves the dictionary as it is. -/
def del (dict : OrderedDict κ ν) (key : κ) : OrderedDict κ ν where
  entries := dict.entries.filter fun entry => decide (entry.1 ≠ key)
  nodup := dict.nodup.sublist
    (List.filter_sublist.map Prod.fst)

@[simp] theorem get?_empty (key : κ) :
    (empty : OrderedDict κ ν).get? key = none := rfl

theorem find?_eq_some_iff_mem {entries : List (κ × ν)}
    (nodup : (entries.map Prod.fst).Nodup) (key : κ) (value : ν) :
    (entries.find? fun entry => decide (entry.1 = key)).map Prod.snd =
        some value ↔ (key, value) ∈ entries := by
  induction entries with
  | nil => simp
  | cons entry rest inductionHypothesis =>
      rw [List.map_cons, List.nodup_cons] at nodup
      by_cases same : entry.1 = key
      · have absent : (key, value) ∉ rest := fun member =>
          nodup.1 (same ▸ List.mem_map.mpr ⟨(key, value), member, rfl⟩)
        rw [List.find?_cons_of_pos (by simp [same])]
        simp only [Option.map_some, Option.some.injEq, List.mem_cons, absent,
          or_false]
        constructor
        · intro valueEq
          rw [← same, ← valueEq]
        · intro entryEq
          rw [← entryEq]
      · have other : (key, value) ≠ entry := fun entryEq =>
          same (entryEq ▸ rfl)
        rw [List.find?_cons_of_neg (by simp [same]),
          inductionHypothesis nodup.2]
        simp [other]

/-- Lookup reads the entry list. -/
theorem get?_eq_some_iff {dict : OrderedDict κ ν} {key : κ} {value : ν} :
    dict.get? key = some value ↔ (key, value) ∈ dict.entries :=
  find?_eq_some_iff_mem dict.nodup key value

theorem mem_values_iff {dict : OrderedDict κ ν} {value : ν} :
    value ∈ dict.values ↔ ∃ key, dict.get? key = some value := by
  simp [values, get?_eq_some_iff]

theorem mem_keys_iff {dict : OrderedDict κ ν} {key : κ} :
    key ∈ dict.keys ↔ ∃ value, dict.get? key = some value := by
  simp [keys, get?_eq_some_iff]

theorem get?_eq_none_iff {dict : OrderedDict κ ν} {key : κ} :
    dict.get? key = none ↔ key ∉ dict.keys := by
  rw [mem_keys_iff, Option.eq_none_iff_forall_ne_some]
  simp

private theorem find?_setEntries (key other : κ) (value : ν)
    (entries : List (κ × ν)) :
    ((setEntries key value entries).find? fun entry =>
        decide (entry.1 = other)).map Prod.snd =
      if other = key then some value
      else (entries.find? fun entry => decide (entry.1 = other)).map
        Prod.snd := by
  induction entries with
  | nil =>
      by_cases same : other = key
      · simp [setEntries, same]
      · simp [setEntries, same, Ne.symm same]
  | cons entry rest inductionHypothesis =>
      by_cases head : entry.1 = key
      · by_cases same : other = key
        · simp [setEntries, head, same]
        · simp [setEntries, head, same, Ne.symm same]
      · rw [setEntries, if_neg head]
        by_cases match? : entry.1 = other
        · have differ : other ≠ key := fun equal => head (match?.trans equal)
          simp [match?, differ]
        · rw [List.find?_cons_of_neg (by simp [match?]),
            List.find?_cons_of_neg (by simp [match?])]
          exact inductionHypothesis

/-- Assignment changes exactly one key. -/
theorem get?_set (dict : OrderedDict κ ν) (key other : κ) (value : ν) :
    (dict.set key value).get? other =
      if other = key then some value else dict.get? other :=
  find?_setEntries key other value dict.entries

@[simp] theorem get?_set_self (dict : OrderedDict κ ν) (key : κ)
    (value : ν) : (dict.set key value).get? key = some value := by
  simp [get?_set]

theorem get?_set_of_ne (dict : OrderedDict κ ν) {key other : κ}
    (value : ν) (differ : other ≠ key) :
    (dict.set key value).get? other = dict.get? other := by
  simp [get?_set, differ]

/-- The last of two assignments to one key stays. -/
theorem set_set (dict : OrderedDict κ ν) (key : κ) (first second : ν) :
    (dict.set key first).set key second = dict.set key second := by
  have twice : ∀ entries : List (κ × ν),
      setEntries key second (setEntries key first entries) =
        setEntries key second entries := by
    intro entries
    induction entries with
    | nil => simp [setEntries]
    | cons entry rest inductionHypothesis =>
        by_cases same : entry.1 = key
        · simp [setEntries, same]
        · simp [setEntries, same, inductionHypothesis]
  exact ext (twice dict.entries)

/-- Deletion changes exactly one key. -/
theorem get?_del (dict : OrderedDict κ ν) (key other : κ) :
    (dict.del key).get? other =
      if other = key then none else dict.get? other := by
  apply Option.ext
  intro value
  by_cases same : other = key
  · simp [get?_eq_some_iff, del, same]
  · rw [if_neg same, get?_eq_some_iff, get?_eq_some_iff]
    simp [del, same]

@[simp] theorem get?_del_self (dict : OrderedDict κ ν) (key : κ) :
    (dict.del key).get? key = none := by
  simp [get?_del]

theorem get?_del_of_ne (dict : OrderedDict κ ν) {key other : κ}
    (differ : other ≠ key) :
    (dict.del key).get? other = dict.get? other := by
  simp [get?_del, differ]

/-- Deleting a missing key changes nothing. -/
theorem del_of_get?_none {dict : OrderedDict κ ν} {key : κ}
    (absent : dict.get? key = none) : dict.del key = dict := by
  apply ext
  rw [del, List.filter_eq_self]
  intro entry member
  have missing := get?_eq_none_iff.mp absent
  have differ : entry.1 ≠ key := fun same =>
    missing (same ▸ List.mem_map.mpr ⟨entry, member, rfl⟩)
  simp [differ]

/-- Assigning a new key appends its entry. -/
theorem entries_set_of_get?_none {dict : OrderedDict κ ν} {key : κ}
    (value : ν) (absent : dict.get? key = none) :
    (dict.set key value).entries = dict.entries ++ [(key, value)] := by
  have missing : key ∉ dict.entries.map Prod.fst :=
    get?_eq_none_iff.mp absent
  have append : ∀ entries : List (κ × ν), key ∉ entries.map Prod.fst →
      setEntries key value entries = entries ++ [(key, value)] := by
    intro entries outside
    induction entries with
    | nil => rfl
    | cons entry rest inductionHypothesis =>
        rw [List.map_cons, List.mem_cons, not_or] at outside
        rw [setEntries, if_neg (Ne.symm outside.1),
          inductionHypothesis outside.2, List.cons_append]
  exact append dict.entries missing

/-- Distinct keys of an injectively keyed dictionary hold distinct values. -/
theorem nodup_values {dict : OrderedDict κ ν} (keyOf : ν → κ)
    (keyed : ∀ key value, dict.get? key = some value → keyOf value = key) :
    dict.values.Nodup := by
  have mapped : dict.values.map keyOf = dict.keys := by
    rw [values, keys, List.map_map]
    apply List.map_congr_left
    intro entry member
    exact keyed entry.1 entry.2 (get?_eq_some_iff.mpr member)
  exact List.Nodup.of_map keyOf (mapped ▸ dict.nodup)

end OrderedDict

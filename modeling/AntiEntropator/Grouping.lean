import Mathlib.Algebra.GroupWithZero.Nat
import Mathlib.Algebra.Order.BigOperators.Group.List
import Mathlib.Algebra.Order.Group.Nat
import Mathlib.Data.List.Basic
import Mathlib.Data.List.Induction
import Mathlib.Data.List.Perm.Basic

/-!
# Grouping by key

Items arrive one at a time and each changes the entry of its key, a fresh one
if the key is new.  Afterwards there is one entry for each key that occurred,
and its value is what the items of that key, in order, make of a fresh one.
-/

universe u v w

namespace Grouping

variable {Key : Type u} {Item : Type v} {Value : Type w} [DecidableEq Key]

/-- Change the entry of a key; a missing one is fresh. -/
def upsert (fresh : Value) (change : Value → Value) (key : Key) :
    List (Key × Value) → List (Key × Value)
  | [] => [(key, change fresh)]
  | (other, value) :: rest =>
      if other = key then (other, change value) :: rest
      else (other, value) :: upsert fresh change key rest

def collect (fresh : Value) (add : Value → Item → Value) (items : List (Key × Item)) :
    List (Key × Value) :=
  items.foldl (fun entries item => upsert fresh (fun value => add value item.2) item.1 entries) []

def under (key : Key) (items : List (Key × Item)) : List Item :=
  (items.filter fun item => item.1 = key).map Prod.snd

/-- The keys that occur, in the order of their first occurrence. -/
def keys (items : List (Key × Item)) : List Key := (items.map Prod.fst).eraseDups

theorem collect_snoc (fresh : Value) (add : Value → Item → Value) (items : List (Key × Item))
    (item : Key × Item) : collect fresh add (items ++ [item]) =
      upsert fresh (fun value => add value item.2) item.1 (collect fresh add items) := by
  simp [collect]

theorem under_snoc (key : Key) (items : List (Key × Item)) (item : Key × Item) :
    under key (items ++ [item]) =
      under key items ++ if item.1 = key then [item.2] else [] := by
  by_cases same : item.1 = key <;> simp [under, same]

theorem under_eq_nil {key : Key} {items : List (Key × Item)}
    (missing : key ∉ items.map Prod.fst) : under key items = [] := by
  simp only [under, List.map_eq_nil_iff, List.filter_eq_nil_iff, decide_eq_true_eq]
  intro item member same
  exact missing (List.mem_map.mpr ⟨item, member, same⟩)

theorem mem_keys_iff {key : Key} {items : List (Key × Item)} :
    key ∈ keys items ↔ key ∈ items.map Prod.fst := List.mem_eraseDups

theorem keys_snoc (items : List (Key × Item)) (item : Key × Item) :
    keys (items ++ [item]) =
      if item.1 ∈ keys items then keys items else keys items ++ [item.1] := by
  simp only [mem_keys_iff]
  unfold keys
  rw [List.map_append, List.map_singleton, List.eraseDups_append]
  by_cases known : item.1 ∈ items.map Prod.fst <;> 
    simp [List.removeAll, known, List.eraseDups_cons]

theorem nodup_keys (items : List (Key × Item)) : (keys items).Nodup := by
  induction items using List.reverseRecOn with
  | nil => simp [keys]
  | append_singleton items item inductionHypothesis =>
      rw [keys_snoc]
      split
      next => exact inductionHypothesis
      next missing =>
        rw [List.nodup_append]
        refine ⟨inductionHypothesis, by simp, ?_⟩
        rintro key member other last rfl
        exact missing (List.mem_singleton.mp last ▸ member)

theorem upsert_map (fresh : Value) (change : Value → Value) (key : Key) {table : List Key}
    (nodup : table.Nodup) (value : Key → Value) :
    upsert fresh change key (table.map fun known => (known, value known)) =
      if key ∈ table then
        table.map fun known => (known, if known = key then change (value known) else value known)
      else table.map (fun known => (known, value known)) ++ [(key, change fresh)] := by
  induction table with
  | nil => rfl
  | cons known rest inductionHypothesis =>
      obtain ⟨absent, nodup⟩ := List.nodup_cons.mp nodup
      by_cases same : known = key
      · subst same
        have others : ∀ other ∈ rest, (other, value other) =
            (other, if other = known then change (value other) else value other) := by
          intro other member
          have differ : other ≠ known := fun equal => absent (equal ▸ member)
          rw [if_neg differ]
        simpa [upsert] using others
      · have differ : key ≠ known := fun equal => same equal.symm
        rw [List.map_cons, upsert, if_neg same, inductionHypothesis nodup]
        by_cases found : key ∈ rest <;> simp [found, same, differ]

/-- There is one entry for each key, made of the items of that key. -/
theorem collect_eq (fresh : Value) (add : Value → Item → Value) (items : List (Key × Item)) :
    collect fresh add items =
      (keys items).map fun key => (key, (under key items).foldl add fresh) := by
  induction items using List.reverseRecOn with
  | nil => rfl
  | append_singleton items item inductionHypothesis =>
      rw [collect_snoc, inductionHypothesis, upsert_map _ _ _ (nodup_keys items), keys_snoc]
      split
      next known =>
        apply List.map_congr_left
        intro key _
        by_cases same : key = item.1
        · simp [under_snoc, same]
        · simp [under_snoc, same, Ne.symm same]
      next missing =>
        rw [mem_keys_iff] at missing
        have others : ∀ key ∈ keys items, under key (items ++ [item]) = under key items := by
          intro key member
          have differ : item.1 ≠ key := fun same => missing (same ▸ mem_keys_iff.mp member)
          simp [under_snoc, differ]
        rw [List.map_append, List.map_singleton, under_snoc, under_eq_nil missing]
        congr 1
        · apply List.map_congr_left
          intro key member
          rw [others key member]
        · simp

def group (items : List (Key × Item)) : List (Key × List Item) :=
  collect [] (fun values value => values ++ [value]) items

theorem group_eq (items : List (Key × Item)) :
    group items = (keys items).map fun key => (key, under key items) := by
  rw [group, collect_eq]
  apply List.map_congr_left
  intro key _
  rw [List.foldl_append_eq_append, ← List.flatMap_def, List.flatMap_singleton', List.nil_append]

theorem group_snoc (items : List (Key × Item)) (item : Key × Item) :
    group (items ++ [item]) =
      upsert [] (fun values => values ++ [item.2]) item.1 (group items) :=
  collect_snoc [] _ items item

def ungroup (groups : List (Key × List Item)) : List (Key × Item) :=
  groups.flatMap fun entry => entry.2.map fun item => (entry.1, item)

theorem ungroup_upsert (key : Key) (item : Item) (groups : List (Key × List Item)) :
    (ungroup (upsert [] (fun items => items ++ [item]) key groups)).Perm
      (ungroup groups ++ [(key, item)]) := by
  induction groups with
  | nil => exact .refl _
  | cons entry rest inductionHypothesis =>
      obtain ⟨other, items⟩ := entry
      rw [upsert]
      split
      next same =>
        subst same
        simp only [ungroup, List.flatMap_cons, List.map_append, List.map_singleton,
          List.append_assoc]
        exact List.Perm.append_left _ List.perm_append_comm
      next =>
        simp only [ungroup, List.flatMap_cons, List.append_assoc]
        exact List.Perm.append_left _ inductionHypothesis

theorem ungroup_group (items : List (Key × Item)) : (ungroup (group items)).Perm items := by
  induction items using List.reverseRecOn with
  | nil => exact .refl _
  | append_singleton items item inductionHypothesis =>
      rw [group_snoc]
      exact (ungroup_upsert item.1 item.2 (group items)).trans
        (inductionHypothesis.append_right [item])

theorem sum_under (weight : Item → Nat) (items : List (Key × Item)) :
    ((keys items).map fun key => ((under key items).map weight).sum).sum =
      (items.map fun item => weight item.2).sum := by
  have same := ((ungroup_group items).map fun item => weight item.2).sum_nat
  rw [← same, group_eq, ungroup, List.flatMap_map, List.map_flatMap, List.flatMap_def,
    List.sum_flatten]
  simp only [List.map_map, Function.comp_def]

theorem sum_under_le (weight : Item → Nat) (key : Key) (items : List (Key × Item)) :
    ((under key items).map weight).sum ≤ (items.map fun item => weight item.2).sum := by
  unfold under
  rw [List.map_map]
  exact (List.filter_sublist.map _).sum_le_sum fun _ _ => Nat.zero_le _

theorem keys_perm {first second : List (Key × Item)} (same : first.Perm second) :
    (keys first).Perm (keys second) := by
  apply (List.perm_ext_iff_of_nodup (nodup_keys first) (nodup_keys second)).mpr
  intro key
  rw [mem_keys_iff, mem_keys_iff]
  exact (same.map Prod.fst).mem_iff

theorem length_under_perm {first second : List (Key × Item)} (same : first.Perm second)
    (key : Key) : (under key first).length = (under key second).length :=
  ((same.filter _).map Prod.snd).length_eq

theorem length_under (key : Key) (items : List (Key × Item)) :
    (under key items).length = (items.map Prod.fst).count key := by
  rw [under, List.length_map, ← List.countP_eq_length_filter, List.count, List.countP_map]
  rfl

end Grouping

import Mathlib.Data.List.Sort
import VmAdmission.Json.Canonical

namespace VmAdmission

section

variable {α : Type} {members : List (Member α)} {key : String} {x : α}

theorem lookup_member (member : Member α) (members : List (Member α)) (key : String) :
    (member :: members).lookup key =
      if key = member.1 then some member.2 else members.lookup key := by
  obtain ⟨name, x⟩ := member
  by_cases same : key = name
  · simp [same]
  · rw [List.lookup_cons, beq_eq_false_iff_ne.mpr same, if_neg same]

theorem lookup_eq_head?_filter (members : List (Member α)) (key : String) :
    members.lookup key = ((members.filter (·.1 = key)).head?).map (·.2) := by
  induction members with
  | nil => rfl
  | cons member members ih =>
    rw [lookup_member, ih]
    by_cases same : key = member.1
    · simp [same]
    · have other : member.1 ≠ key := fun eq => same eq.symm
      rw [if_neg same, List.filter_cons_of_neg (by simpa using other)]

theorem lookup_filter (p : String → Prop) [DecidablePred p] (members : List (Member α))
    (key : String) :
    (members.filter fun m => p m.1).lookup key = if p key then members.lookup key else none := by
  rw [lookup_eq_head?_filter, lookup_eq_head?_filter, List.filter_filter]
  split
  · rename_i listed
    congr 3
    funext m
    by_cases same : m.1 = key <;> simp [same, listed]
  · rename_i unlisted
    have nothing : (members.filter fun m => decide (m.1 = key) && decide (p m.1)) = [] := by
      refine List.filter_eq_nil_iff.mpr fun m _ => ?_
      by_cases same : m.1 = key <;> simp [same, unlisted]
    rw [nothing]
    rfl

theorem lookup_eq_some_iff (distinct : (members.map (·.1)).Nodup) :
    members.lookup key = some x ↔ (key, x) ∈ members := by
  induction members with
  | nil => simp
  | cons member members ih =>
    obtain ⟨name, y⟩ := member
    obtain ⟨new, rest⟩ := List.nodup_cons.mp distinct
    rw [lookup_member, List.mem_cons]
    by_cases same : key = name
    · subst same
      have absent : (key, x) ∉ members := fun inside => new (List.mem_map.mpr ⟨_, inside, rfl⟩)
      simp [absent, eq_comm]
    · simp [same, ih rest]

theorem lookup_perm {others : List (Member α)} (perm : members.Perm others)
    (distinct : (members.map (·.1)).Nodup) : members.lookup key = others.lookup key := by
  have also : (others.map (·.1)).Nodup := (perm.map _).nodup_iff.mp distinct
  ext x
  rw [lookup_eq_some_iff distinct, lookup_eq_some_iff also, perm.mem_iff]

theorem lookup_settleStep (settled : List (Member α)) (next : Member α) (key : String) :
    (settleStep settled next).lookup key = (next :: settled).lookup key := by
  cases settled with
  | nil => rfl
  | cons last earlier =>
    rw [settleStep]
    split
    · rename_i same
      by_cases here : key = next.1
      · simp only [lookup_member, if_pos here]
      · have notLast : key ≠ last.1 := fun eq => here (eq.trans same)
        simp only [lookup_member, if_neg here, if_neg notLast]
    · rfl

theorem lookup_foldl_settleStep (members settled : List (Member α)) (key : String) :
    (members.foldl settleStep settled).lookup key = (members.reverse ++ settled).lookup key := by
  induction members generalizing settled with
  | nil => rfl
  | cons next members ih =>
    rw [List.foldl_cons, ih, List.reverse_cons, List.append_assoc, List.singleton_append,
      List.lookup_append, List.lookup_append, lookup_settleStep]

/-- Sorting leaves the members with one key in their order. -/
theorem filter_mergeSort (members : List (Member α)) (key : String) :
    (members.mergeSort fun a b => decide (a.1 ≤ b.1)).filter (·.1 = key) =
      members.filter (·.1 = key) := by
  have alike : (members.filter (·.1 = key)).Pairwise fun a b => decide (a.1 ≤ b.1) = true := by
    refine List.pairwise_of_forall_mem_list fun a fromA b fromB => ?_
    simp_all
  have sublist : (members.filter (·.1 = key)).Sublist
      (members.mergeSort fun a b => decide (a.1 ≤ b.1)) :=
    List.sublist_mergeSort
      (fun a b c ab bc => by
        simp only [decide_eq_true_eq] at *
        exact String.le_trans ab bc)
      (fun a b => by simpa using String.le_total a.1 b.1) alike List.filter_sublist
  have kept : (members.filter (·.1 = key)).Sublist
      ((members.mergeSort fun a b => decide (a.1 ≤ b.1)).filter (·.1 = key)) := by
    simpa using sublist.filter (·.1 = key)
  exact (kept.eq_of_length ((List.mergeSort_perm _ _).filter _).length_eq.symm).symm

theorem nodup_of_sorted (sorted : members.Pairwise fun a b => a.1 < b.1) :
    (members.map (·.1)).Nodup :=
  List.pairwise_map.mpr (sorted.imp String.ne_of_lt)

/-- Of the members with one key the last is kept. -/
theorem lookup_settle (members : List (Member α)) (key : String) :
    (settle members).lookup key = members.reverse.lookup key := by
  have distinct := nodup_of_sorted (pairwise_settle members)
  rw [lookup_perm (List.reverse_perm _).symm distinct, settle, List.reverse_reverse,
    lookup_foldl_settleStep, List.append_nil, lookup_eq_head?_filter, lookup_eq_head?_filter,
    List.filter_reverse, List.filter_reverse, filter_mergeSort]

theorem settle_perm (distinct : (members.map (·.1)).Nodup) : (settle members).Perm members := by
  have sorted := nodup_of_sorted (pairwise_settle members)
  refine (List.perm_ext_iff_of_nodup (.of_map _ sorted) (.of_map _ distinct)).mpr fun (key, x) => ?_
  have reversed : (members.reverse.map (·.1)).Nodup := by
    rwa [List.map_reverse, List.nodup_reverse]
  rw [← lookup_eq_some_iff sorted, lookup_settle, lookup_eq_some_iff reversed, List.mem_reverse]

end

namespace Members

theorem keys_nodup (members : Members) : (members.entries.map (·.1)).Nodup :=
  nodup_of_sorted members.sorted

theorem get?_eq_some_iff {members : Members} {key : String} {x : Json.Canonical} :
    members.get? key = some x ↔ (key, x) ∈ members.entries :=
  lookup_eq_some_iff members.keys_nodup

theorem get?_ofList (members : List (Member Json.Canonical)) (key : String) :
    (ofList members).get? key = members.reverse.lookup key :=
  lookup_settle members key

theorem eq_of_get? {members others : Members}
    (same : ∀ key, members.get? key = others.get? key) : members = others := by
  have entries : members.entries = others.entries := by
    have irrefl : Std.Irrefl fun a b : Member Json.Canonical => a.1 < b.1 :=
      ⟨fun a => String.lt_irrefl a.1⟩
    refine members.sorted.eq_of_mem_iff others.sorted fun (key, x) => ?_
    rw [← get?_eq_some_iff, ← get?_eq_some_iff, same]
  cases members
  cases others
  cases entries
  rfl

end Members

end VmAdmission

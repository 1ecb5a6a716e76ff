import VmAdmission.Json.Basic

namespace VmAdmission

/-- A member of an object: its key and its value. -/
abbrev Member (α : Type) := String × α

/-- Adds the next member in key order to the settled ones, the newest first. A member replaces
the one before it when both have one key. -/
def settleStep {α : Type} (settled : List (Member α)) (next : Member α) : List (Member α) :=
  match settled with
  | [] => [next]
  | last :: earlier => if last.1 = next.1 then next :: earlier else next :: last :: earlier

/-- The members in strictly increasing key order, the last one of each key. -/
def settle {α : Type} (members : List (Member α)) : List (Member α) :=
  ((members.mergeSort fun a b => a.1 ≤ b.1).foldl settleStep []).reverse

theorem mem_of_mem_foldl_settleStep {α : Type} {members settled : List (Member α)} {m : Member α}
    (member : m ∈ members.foldl settleStep settled) : m ∈ settled ∨ m ∈ members := by
  induction members generalizing settled with
  | nil => exact .inl member
  | cons next rest ih =>
    rcases ih member with inStep | inRest
    · cases settled with
      | nil => simp_all [settleStep]
      | cons last earlier =>
        simp only [settleStep] at inStep
        split at inStep <;> simp_all <;> grind
    · exact .inr (.tail _ inRest)

theorem mem_of_mem_settle {α : Type} {members : List (Member α)} {m : Member α}
    (member : m ∈ settle members) : m ∈ members := by
  rcases mem_of_mem_foldl_settleStep (List.mem_reverse.mp member) with h | h
  · cases h
  · exact (List.mergeSort_perm _ _).mem_iff.mp h

theorem pairwise_foldl_settleStep {α : Type} {members settled : List (Member α)}
    (sorted : members.Pairwise fun a b => a.1 ≤ b.1)
    (before : ∀ a ∈ settled, ∀ b ∈ members, a.1 ≤ b.1)
    (descending : settled.Pairwise fun a b => b.1 < a.1) :
    (members.foldl settleStep settled).Pairwise fun a b => b.1 < a.1 := by
  induction members generalizing settled with
  | nil => exact descending
  | cons next rest ih =>
    have ⟨nextLe, restSorted⟩ := List.pairwise_cons.mp sorted
    apply ih restSorted
    · intro a inStep b inRest
      cases settled with
      | nil =>
        obtain rfl : a = next := by simpa [settleStep] using inStep
        exact nextLe b inRest
      | cons last earlier =>
        simp only [settleStep] at inStep
        split at inStep
        · rcases List.mem_cons.mp inStep with rfl | old
          · exact nextLe b inRest
          · exact before a (.tail _ old) b (.tail _ inRest)
        · rcases List.mem_cons.mp inStep with rfl | old
          · exact nextLe b inRest
          · exact before a old b (.tail _ inRest)
    · cases settled with
      | nil => simp [settleStep]
      | cons last earlier =>
        have ⟨lastGt, earlierDescending⟩ := List.pairwise_cons.mp descending
        simp only [settleStep]
        split
        · rename_i same
          exact List.pairwise_cons.mpr ⟨fun a old => same ▸ lastGt a old, earlierDescending⟩
        · rename_i differ
          have lastLt : last.1 < next.1 := by
            have le := before last (.head _) next (.head _)
            rcases Decidable.em (last.1 < next.1) with lt | notLt
            · exact lt
            · exact absurd (String.le_antisymm le (String.not_lt.mp notLt)) differ
          refine List.pairwise_cons.mpr ⟨fun a old => ?_, descending⟩
          rcases List.mem_cons.mp old with rfl | older
          · exact lastLt
          · exact String.lt_trans (lastGt a older) lastLt

theorem pairwise_settle {α : Type} (members : List (Member α)) :
    (settle members).Pairwise fun a b => a.1 < b.1 := by
  rw [settle, List.pairwise_reverse]
  apply pairwise_foldl_settleStep
  · have sorted : (members.mergeSort fun a b => decide (a.1 ≤ b.1)).Pairwise
        fun a b => decide (a.1 ≤ b.1) = true :=
      List.pairwise_mergeSort
        (fun a b c ab bc => by
          simp only [decide_eq_true_eq] at *; exact String.le_trans ab bc)
        (fun a b => by simpa using String.le_total a.1 b.1) members
    simpa using sorted
  · simp
  · exact .nil

namespace Json

structure Canonical where
  json : Json
  isCanonical : json.IsCanonical

namespace Canonical

instance : Inhabited Canonical := ⟨.null, .null⟩

def null : Canonical := ⟨.null, .null⟩

def bool (b : Bool) : Canonical := ⟨.bool b, .bool b⟩

def number (n : Number) : Canonical := ⟨.number n, .number n⟩

def string (s : String) : Canonical := ⟨.string s, .string s⟩

def array (items : List Canonical) : Canonical :=
  ⟨.array (items.map json), .array fun _ member => by
    obtain ⟨item, _, rfl⟩ := List.mem_map.mp member
    exact item.isCanonical⟩

/-- The object of canonical members, settled. -/
def object (members : List (Member Canonical)) : Canonical :=
  ⟨.object ((settle members).map fun m => (m.1, m.2.json)),
    .object (List.pairwise_map.mpr (pairwise_settle members)) fun _ member => by
      obtain ⟨m, _, rfl⟩ := List.mem_map.mp member
      exact m.2.isCanonical⟩

end Canonical

end Json

/-- The members of an object in strictly increasing key order, with canonical values. -/
structure Members where
  entries : List (Member Json.Canonical)
  sorted : entries.Pairwise fun a b => a.1 < b.1

namespace Members

instance : Inhabited Members := ⟨[], .nil⟩

/-- The settled members of a list. -/
def ofList (members : List (Member Json.Canonical)) : Members :=
  ⟨settle members, pairwise_settle members⟩

/-- The value of a key. -/
def get? (members : Members) (key : String) : Option Json.Canonical :=
  members.entries.lookup key

end Members

end VmAdmission

import Mathlib.Data.List.TakeWhile
import VmAdmission.Http.App
import VmAdmission.Proofs.Http.Routes
import VmAdmission.Proofs.Net.Percent

namespace VmAdmission.Http

open Percent (Spells)

/-- The parameter of a path is the text that it spells. -/
theorem parameter_spelled {raw text : String}
    (spelled : Spells raw.toList (Utf8.encode text)) (name : String) :
    parameter name raw = .ok text := by
  have decoded : Percent.decode (Utf8.encode raw) = Utf8.encode text := by
    rw [Utf8.encode_eq raw, spelled.decode]
  simp only [parameter, decoded, Utf8.decode?_encode]

namespace Route

/-- The method and the target with which an operation on a machine is asked for, the id of the
machine as it stands in the path. -/
inductive AskedAt (rawId : String) : Method → String → Operation → Prop
  | reconfigure :
      AskedAt rawId .patch ("/virtualization/v1beta1/virtual-machines/" ++ rawId) .reconfigure
  | delete : AskedAt rawId .delete ("/virtualization/v1beta1/virtual-machines/" ++ rawId) .delete
  | action {last : String} {operation : Operation} (listed : (last, operation) ∈ actions) :
      AskedAt rawId .post ("/virtualization/v1beta1/virtual-machines/" ++ (rawId ++ "/" ++ last))
        operation

/-- What may stand in a path as one segment. -/
structure IsSegment (text : String) : Prop where
  slash : '/' ∉ text.toList
  query : '?' ∉ text.toList
  fragment : '#' ∉ text.toList

/-- The path through the segments. -/
def through (segments : List String) : List Char :=
  segments.flatMap ('/' :: ·.toList)

theorem segmentsFrom_append {part cs : List Char} (whole : '/' ∉ cs) (rest : List Char) :
    segmentsFrom part (cs ++ rest) = segmentsFrom (cs.reverse ++ part) rest := by
  induction cs generalizing part with
  | nil => rfl
  | cons c cs ih =>
    obtain ⟨other, more⟩ := not_or.mp (mt List.mem_cons.mpr whole)
    rw [List.cons_append, segmentsFrom, if_neg (Ne.symm other), ih more, List.reverse_cons,
      List.append_assoc]
    rfl

section

variable {target : String} {segments : List String}

theorem segmentsFrom_through {part : List Char} (each : ∀ text ∈ segments, IsSegment text) :
    segmentsFrom part (through segments) = String.ofList part.reverse :: segments := by
  induction segments generalizing part with
  | nil => rfl
  | cons text segments ih =>
    have first : '/' ∉ text.toList := (each text List.mem_cons_self).slash
    have last : String.ofList (text.toList.reverse ++ []).reverse = text := by simp
    have cut : through (text :: segments) = '/' :: (text.toList ++ through segments) := rfl
    rw [cut, segmentsFrom, if_pos rfl, segmentsFrom_append first,
      ih fun other later => each other (List.mem_cons_of_mem _ later), last]

/-- Neither a query nor a fragment begins inside the segments. -/
theorem pathOf_through (path : target.toList = through segments)
    (each : ∀ text ∈ segments, IsSegment text) : pathOf target = through segments := by
  rw [pathOf, path, List.takeWhile_eq_self_iff]
  intro c member
  obtain ⟨text, listed, there⟩ := List.mem_flatMap.mp member
  rcases List.mem_cons.mp there with rfl | inside
  · rfl
  have query : c ≠ '?' := by
    rintro rfl
    exact (each text listed).query inside
  have fragment : c ≠ '#' := by
    rintro rfl
    exact (each text listed).fragment inside
  simp [query, fragment]

/-- A path below the root of the interface is cut into its segments. -/
theorem ofTarget?_below (path : target.toList = through ("virtualization" :: "v1beta1" :: segments))
    (each : ∀ text ∈ segments, IsSegment text) : ofTarget? target = belowRoot segments := by
  have root : IsSegment "virtualization" ∧ IsSegment "v1beta1" := by
    refine ⟨⟨?_, ?_, ?_⟩, ⟨?_, ?_, ?_⟩⟩ <;> decide
  have all : ∀ text ∈ "virtualization" :: "v1beta1" :: segments, IsSegment text :=
    List.forall_mem_cons.mpr ⟨root.1, List.forall_mem_cons.mpr ⟨root.2, each⟩⟩
  rw [ofTarget?, pathOf_through path all, segmentsFrom_through all]
  rfl

end

theorem isSegment_machines : IsSegment "virtual-machines" := by
  refine ⟨?_, ?_, ?_⟩ <;> decide

/-- Each action has a segment of its own. -/
theorem actions_lookup : ∀ entry ∈ actions,
    actions.lookup entry.1 = some entry.2 ∧ IsSegment entry.1 := by
  have listed : ∀ entry ∈ actions, actions.lookup entry.1 = some entry.2 ∧
      '/' ∉ entry.1.toList ∧ '?' ∉ entry.1.toList ∧ '#' ∉ entry.1.toList := by
    decide
  intro entry member
  obtain ⟨found, slash, query, fragment⟩ := listed entry member
  exact ⟨found, slash, query, fragment⟩

/-- What is asked for at the address is served at its route, for the id as it stands in the path. -/
theorem AskedAt.operates {rawId target : String} {method : Method} {operation : Operation}
    (asked : AskedAt rawId method target operation) (some_ : rawId ≠ "")
    (whole : IsSegment rawId) :
    ∃ route, ofTarget? target = some route ∧ route.Operates method operation rawId := by
  have atMachine : ofTarget? ("/virtualization/v1beta1/virtual-machines/" ++ rawId) =
      some (.machine rawId) := by
    have path : ("/virtualization/v1beta1/virtual-machines/" ++ rawId).toList =
        through ["virtualization", "v1beta1", "virtual-machines", rawId] := by
      simp only [String.toList_append, through, List.flatMap_cons, List.flatMap_nil,
        List.append_nil]
      rfl
    rw [ofTarget?_below path (List.forall_mem_cons.mpr ⟨isSegment_machines,
      List.forall_mem_singleton.mpr whole⟩)]
    simp only [belowRoot, if_neg some_]
  cases asked with
  | reconfigure => exact ⟨_, atMachine, .reconfigure rawId⟩
  | delete => exact ⟨_, atMachine, .delete rawId⟩
  | @action last operation listed =>
    obtain ⟨found, plain⟩ := actions_lookup _ listed
    have path : ("/virtualization/v1beta1/virtual-machines/" ++ (rawId ++ "/" ++ last)).toList =
        through ["virtualization", "v1beta1", "virtual-machines", rawId, last] := by
      simp only [String.toList_append, through, List.flatMap_cons, List.flatMap_nil,
        List.append_nil, List.append_assoc]
      rfl
    refine ⟨.action operation rawId, ?_, .action operation rawId⟩
    rw [ofTarget?_below path (List.forall_mem_cons.mpr ⟨isSegment_machines,
      List.forall_mem_cons.mpr ⟨whole, List.forall_mem_singleton.mpr plain⟩⟩)]
    simp only [belowRoot, found, Option.map_some]

end Route

end VmAdmission.Http

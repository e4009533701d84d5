import LispEditor.Json.Value
import Mathlib.Data.List.Nodup

/-!
# Members by their keys

The members of an object are a list, and so the order they are written in is kept. For all else they
are a table from keys to values.

* `JsonMembers.get?_put`, `JsonMembers.get?_update`: what is found in the table after a change.
* `JsonMembers.distinct_put`, `JsonMembers.distinct_update`: no key is there twice.
* `JsonMembers.update_of_distinct`: members that are put in one after the other keep their order.
-/

namespace LispEditor

namespace JsonMembers

/-- No two members have the same key. -/
def Distinct (members : JsonMembers) : Prop :=
  (members.map Prod.fst).Nodup

variable {members newer : JsonMembers} {key other : String} {value : JsonValue}

theorem get?_cons (member : String × JsonValue) (rest : JsonMembers) (key : String) :
    get? (member :: rest) key = if member.1 = key then some member.2 else get? rest key := by
  by_cases same : member.1 = key
  · simp [get?, same]
  · simp [get?, same]

/-- A value is found under the key that it was put under, and all other values stay. -/
theorem get?_put (members : JsonMembers) (key : String) (value : JsonValue) (other : String) :
    (members.put key value).get? other = if key = other then some value else members.get? other := by
  induction members with
  | nil => exact get?_cons _ _ _
  | cons member rest ih =>
      rw [put]
      by_cases here : member.1 = key
      · rw [if_pos (beq_iff_eq.mpr here), get?_cons, get?_cons, here]
        by_cases asked : key = other
        · rw [if_pos asked, if_pos asked]
        · simp only [if_neg asked]
      · rw [if_neg (mt beq_iff_eq.mp here), get?_cons, get?_cons, ih]
        by_cases asked : member.1 = other
        · have elsewhere : key ≠ other := fun same => here (asked.trans same.symm)
          rw [if_pos asked, if_pos asked, if_neg elsewhere]
        · rw [if_neg asked, if_neg asked]

@[simp]
theorem get?_put_self (members : JsonMembers) (key : String) (value : JsonValue) :
    (members.put key value).get? key = some value := by
  rw [get?_put, if_pos rfl]

theorem get?_put_of_ne (members : JsonMembers) (value : JsonValue) (differs : key ≠ other) :
    (members.put key value).get? other = members.get? other := by
  rw [get?_put, if_neg differs]

theorem get?_eq_none (absent : key ∉ members.map Prod.fst) : members.get? key = none := by
  induction members with
  | nil => rfl
  | cons member rest ih =>
      obtain ⟨other, behind⟩ := List.ne_and_not_mem_of_not_mem_cons absent
      rw [get?_cons, if_neg (Ne.symm other), ih behind]

/-- Newer members go over older ones. -/
theorem get?_update (members : JsonMembers) (distinct : newer.Distinct) (key : String) :
    (members.update newer).get? key = (newer.get? key).or (members.get? key) := by
  induction newer generalizing members with
  | nil => rfl
  | cons member rest ih =>
      obtain ⟨absent, others⟩ := List.nodup_cons.mp distinct
      have later : update members (member :: rest) = update (put member.1 member.2 members) rest :=
        rfl
      rw [later, ih _ others, get?_put, get?_cons]
      by_cases here : member.1 = key
      · rw [if_pos here, if_pos here, get?_eq_none (here ▸ absent)]
        rfl
      · rw [if_neg here, if_neg here]

theorem mem_put {key : String} {value : JsonValue} {member : String × JsonValue}
    (present : member ∈ members.put key value) : member = (key, value) ∨ member ∈ members := by
  induction members with
  | nil => exact .inl (List.mem_singleton.mp present)
  | cons first rest ih =>
      rw [put] at present
      split at present
      · exact (List.mem_cons.mp present).imp_right (List.mem_cons_of_mem first)
      · rcases List.mem_cons.mp present with here | behind
        · exact .inr (List.mem_cons.mpr (.inl here))
        · exact (ih behind).imp_right (List.mem_cons_of_mem first)

theorem mem_update {member : String × JsonValue} (present : member ∈ members.update newer) :
    member ∈ members ∨ member ∈ newer := by
  induction newer generalizing members with
  | nil => exact .inl present
  | cons first rest ih =>
      rcases ih present with put | behind
      · rcases mem_put put with here | old
        · exact .inr (List.mem_cons.mpr (.inl here))
        · exact .inl old
      · exact .inr (List.mem_cons_of_mem first behind)

theorem distinct_put (distinct : members.Distinct) (key : String) (value : JsonValue) :
    (members.put key value).Distinct := by
  induction members with
  | nil => exact List.nodup_singleton key
  | cons member rest ih =>
      obtain ⟨absent, others⟩ := List.nodup_cons.mp distinct
      rw [put]
      split
      next here => exact List.nodup_cons.mpr ⟨beq_iff_eq.mp here ▸ absent, others⟩
      next elsewhere =>
        refine List.nodup_cons.mpr ⟨fun found => ?_, ih others⟩
        obtain ⟨same, present, named⟩ := List.mem_map.mp found
        rcases mem_put present with rfl | old
        · exact elsewhere (beq_iff_eq.mpr named.symm)
        · exact absent (named ▸ List.mem_map_of_mem old)

theorem distinct_update (distinct : members.Distinct) (newer : JsonMembers) :
    (members.update newer).Distinct := by
  induction newer generalizing members with
  | nil => exact distinct
  | cons member rest ih => exact ih (distinct_put distinct member.1 member.2)

/-- A value under a new key comes last. -/
theorem put_of_not_mem {key : String} (absent : key ∉ members.map Prod.fst) (value : JsonValue) :
    members.put key value = members ++ [(key, value)] := by
  induction members with
  | nil => rfl
  | cons first rest ih =>
      obtain ⟨other, behind⟩ := List.ne_and_not_mem_of_not_mem_cons absent
      rw [put, if_neg fun same => other (beq_iff_eq.mp same).symm, ih behind, List.cons_append]

/-- Members with different keys stay as they are when they are put in one after the other. -/
theorem update_of_distinct (distinct : (members ++ newer).Distinct) :
    members.update newer = members ++ newer := by
  induction newer generalizing members with
  | nil => rw [List.append_nil]; rfl
  | cons first rest ih =>
      have apart : (members.map Prod.fst ++ first.1 :: rest.map Prod.fst).Nodup := by
        have names := distinct
        rw [Distinct, List.map_append] at names
        exact names
      have absent : first.1 ∉ members.map Prod.fst := fun present =>
        (List.nodup_append.mp apart).2.2 _ present _ List.mem_cons_self rfl
      have moved : members ++ first :: rest = members ++ [first] ++ rest := by
        rw [List.append_assoc, List.singleton_append]
      rw [moved] at distinct ⊢
      have later : update members (first :: rest) = update (put first.1 first.2 members) rest := rfl
      rw [later, put_of_not_mem absent]
      exact ih distinct

end JsonMembers

end LispEditor

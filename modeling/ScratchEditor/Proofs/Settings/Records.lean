import Mathlib.Data.List.Forall2
import Mathlib.Data.List.Nodup
import ScratchEditor.Proofs.Json.Documents
import ScratchEditor.Settings.Record

/-!
# Records in documents

The members of an object are sorted to the fields that they name.  If no field is named twice,
every field gets the value of the member with its name, wherever this member stands and whatever
other members stand around it.  So a record may be revised by hand: fields may be deleted, put in
another order, and accompanied by members that name no field.

Main definitions:

- `Json.valueOf?`: the value of the member with a name.
- `Json.Revision`: the members that the fields of a record have become.
- `Json.Slot`: what is found of a field afterwards.

Main results:

- `Json.sortMembers_eq`: every field gets the value of the member with its name.
- `Json.Revision.slots`: the fields of a revised record.
- `Json.fields?_record`: the fields of a written record are its values in order.
- `Json.written_record_iff`: a record of written values is a written value.
-/

namespace ScratchEditor

namespace Json

/-! ## Sorting members -/

/-- The value of the member with a name. -/
def valueOf? (name : Text) (members : List (Text × Json)) : Option Json :=
  (members.find? fun member => decodeText? member.1 == some name).map (·.2)

theorem valueOf?_cons_self {name : Text} {member : Text × Json} (members : List (Text × Json))
    (h : decodeText? member.1 = some name) :
    valueOf? name (member :: members) = some member.2 := by
  simp [valueOf?, h]

theorem valueOf?_cons_of_ne {name : Text} {member : Text × Json} (members : List (Text × Json))
    (h : decodeText? member.1 ≠ some name) :
    valueOf? name (member :: members) = valueOf? name members := by
  simp [valueOf?, h]

/-- Two members that do not name the same field. -/
def Apart (names : List Text) (a b : Text × Json) : Prop :=
  ∀ name ∈ names, decodeText? a.1 = some name → decodeText? b.1 ≠ some name

theorem Apart.symm {names : List Text} {a b : Text × Json} (h : Apart names a b) :
    Apart names b a :=
  fun name hname hb ha => h name hname ha hb

/-- Among members that are apart, the one with the name of a field is found. -/
theorem valueOf?_eq_some {names : List Text} {members : List (Text × Json)}
    (hapart : members.Pairwise (Apart names)) {name : Text} (hname : name ∈ names)
    {member : Text × Json} (hmem : member ∈ members) (h : decodeText? member.1 = some name) :
    valueOf? name members = some member.2 := by
  induction hapart with
  | nil => cases hmem
  | @cons first members hfirst _ ih =>
    rcases List.mem_cons.mp hmem with rfl | hlater
    · exact valueOf?_cons_self members h
    · have hne : decodeText? first.1 ≠ some name := fun heq =>
        hfirst member hlater name hname heq h
      rw [valueOf?_cons_of_ne members hne]
      exact ih hlater

theorem valueOf?_eq_none {members : List (Text × Json)} {name : Text}
    (h : ∀ member ∈ members, decodeText? member.1 ≠ some name) : valueOf? name members = none := by
  rw [valueOf?, Option.map_eq_none_iff, List.find?_eq_none]
  intro member hmem
  simpa using h member hmem

/-- A free place takes a value. -/
theorem fill_map {names : List Text} (hnames : names.Nodup) {given : Text → Option Json}
    {name : Text} {index : Nat} (hindex : names.findIdx? (· == name) = some index)
    (hfree : given name = none) (value : Json) :
    fill (names.map given) index value =
      some (names.map fun other => if other = name then some value else given other) := by
  induction names generalizing index with
  | nil => cases hindex
  | cons first names ih =>
    obtain ⟨hfirst, hnames⟩ := List.nodup_cons.mp hnames
    by_cases heq : first = name
    · subst heq
      have hzero : index = 0 := by
        simpa [List.findIdx?_cons, eq_comm] using hindex
      have hrest : names.map (fun other => if other = first then some value else given other) =
          names.map given := by
        apply List.map_congr_left
        intro other hother
        have hne : other ≠ first := by
          rintro rfl
          exact hfirst hother
        rw [if_neg hne]
      rw [hzero, List.map_cons, List.map_cons, hrest, hfree, if_pos rfl]
      rfl
    · obtain ⟨later, hlater, rfl⟩ :
          ∃ later, names.findIdx? (· == name) = some later ∧ later + 1 = index := by
        rw [List.findIdx?_cons, beq_false_of_ne heq] at hindex
        exact Option.map_eq_some_iff.mp hindex
      rw [List.map_cons, List.map_cons, fill, ih hnames hlater, if_neg heq]
      rfl

/-- Every field gets the value of the member with its name, if it has none already. -/
theorem sortMembers_eq {names : List Text} (hnames : names.Nodup) {given : Text → Option Json}
    {members : List (Text × Json)}
    (hkeys : ∀ member ∈ members, ∃ name, decodeText? member.1 = some name)
    (hapart : members.Pairwise (Apart names))
    (hfree : ∀ member ∈ members, ∀ name ∈ names, decodeText? member.1 = some name →
      given name = none) :
    sortMembers names (names.map given) members =
      some (names.map fun name => (given name).or (valueOf? name members)) := by
  induction members generalizing given with
  | nil => simp [sortMembers, valueOf?]
  | cons member members ih =>
    obtain ⟨name, hname⟩ := hkeys member List.mem_cons_self
    obtain ⟨hfirst, hapart⟩ := List.pairwise_cons.mp hapart
    have hkeys' := fun other hother => hkeys other (List.mem_cons_of_mem member hother)
    rw [sortMembers, hname, Option.bind_eq_bind, Option.bind_some]
    cases hindex : names.findIdx? (· == name) with
    | none =>
      have hunknown : name ∉ names := by
        rw [List.findIdx?_eq_none_iff] at hindex
        intro hmem
        simpa using hindex name hmem
      dsimp only
      rw [ih hkeys' hapart fun other hother => hfree other (List.mem_cons_of_mem member hother)]
      congr 1
      apply List.map_congr_left
      intro other hother
      have hne : decodeText? member.1 ≠ some other := by
        rw [hname]
        rintro ⟨rfl⟩
        exact hunknown hother
      rw [valueOf?_cons_of_ne members hne]
    | some index =>
      have hmem : name ∈ names := by
        obtain ⟨hlt, heq, -⟩ := List.findIdx?_eq_some_iff_getElem.mp hindex
        exact (eq_of_beq heq) ▸ List.getElem_mem hlt
      have hnone := hfree member List.mem_cons_self name hmem hname
      -- the field is taken now, but no later member names it
      dsimp only
      rw [fill_map hnames hindex hnone, Option.bind_eq_bind, Option.bind_some, ih hkeys' hapart]
      · congr 1
        apply List.map_congr_left
        intro other _
        by_cases heq : other = name
        · rw [heq, if_pos rfl, hnone, valueOf?_cons_self members hname]
          rfl
        · have hne : decodeText? member.1 ≠ some other := by
            rw [hname]
            exact fun h => heq (Option.some.inj h).symm
          rw [if_neg heq, valueOf?_cons_of_ne members hne]
      · intro later hlater other hother hnamed
        have hne : other ≠ name := by
          rintro rfl
          exact hfirst later hlater other hother hname hnamed
        rw [if_neg hne]
        exact hfree later (List.mem_cons_of_mem member hlater) other hother hnamed

/-! ## Revised records -/

/-- A key that is spelled as it has to be, and stands for a name. -/
structure Spells (key name : Text) : Prop where
  isBody : IsBody key
  decode : decodeText? key = some name

theorem spells_encodeText (name : Text) : Spells (encodeText name) name :=
  ⟨isBody_encodeText name, decodeText?_encodeText name⟩

/--
The members that the fields of a record have become: some fields were deleted, the others
have perhaps changed their values, written members that name no field were added, and all of
them were put in some order.
-/
inductive Revision (deleted : String → Bool) (changed : String → Json → Json → Prop)
    (fields : List (String × Json)) : List (Text × Json) → Prop
  | of {kept added members : List (Text × Json)}
    (hkept : List.Forall₂ (fun field member =>
      Spells member.1 field.1.toList ∧ changed field.1 field.2 member.2)
      (fields.filter fun field => !deleted field.1) kept)
    (hadded : ∀ member ∈ added, member.2.Written ∧
      ∃ name, Spells member.1 name ∧ ∀ field ∈ fields, field.1.toList ≠ name)
    (horder : members.Perm (kept ++ added)) : Revision deleted changed fields members

/-- What is found of a field that was deleted, or whose value was changed. -/
inductive Slot (deleted : Bool) (changed : Json → Prop) : Option Json → Prop
  | deleted (h : deleted = true) : Slot deleted changed none
  | kept {value : Json} (h : deleted = false) (hvalue : changed value) :
    Slot deleted changed (some value)

namespace Revision

variable {deleted : String → Bool} {changed : String → Json → Json → Prop}
  {fields : List (String × Json)} {members : List (Text × Json)}

/-- The members of the fields that were not deleted, in their order. -/
theorem deletion (deleted : String → Bool)
    (hchanged : ∀ field ∈ fields, changed field.1 field.2 field.2) :
    Revision deleted changed fields ((fields.filter fun field => !deleted field.1).map fun field =>
      (encodeText field.1.toList, field.2)) := by
  refine of ?_ (List.forall_mem_nil _) (by rw [List.append_nil])
  rw [List.forall₂_map_right_iff, List.forall₂_same]
  intro field hfield
  exact ⟨spells_encodeText _, hchanged field (List.mem_filter.mp hfield).1⟩

/-- The fields as they are written are a revision without changes. -/
theorem refl (hchanged : ∀ field ∈ fields, changed field.1 field.2 field.2) :
    Revision (fun _ => false) changed fields
      (fields.map fun field => (encodeText field.1.toList, field.2)) := by
  simpa using deletion (fun _ => false) hchanged

/-- A member is what has become of a field, or it was added. -/
theorem kept_or_added (h : Revision deleted changed fields members) {member : Text × Json}
    (hmember : member ∈ members) :
    (∃ field ∈ fields, Spells member.1 field.1.toList ∧ changed field.1 field.2 member.2) ∨
      (member.2.Written ∧
        ∃ name, Spells member.1 name ∧ ∀ field ∈ fields, field.1.toList ≠ name) := by
  obtain @⟨kept, added, _, hkept, hadded, horder⟩ := h
  rcases List.mem_append.mp (horder.mem_iff.mp hmember) with hmember | hmember
  · obtain ⟨hlength, hget⟩ := List.forall₂_iff_get.mp hkept
    obtain ⟨i, hi, rfl⟩ := List.mem_iff_getElem.mp hmember
    have hfield := List.getElem_mem (hlength ▸ hi)
    exact Or.inl ⟨_, (List.mem_filter.mp hfield).1, hget i (hlength ▸ hi) hi⟩
  · exact Or.inr (hadded member hmember)

/-- Every member names something, and no two of them name the same field. -/
theorem apart (h : Revision deleted changed fields members)
    (hnames : (fields.map (·.1.toList)).Nodup) :
    (∀ member ∈ members, ∃ name, decodeText? member.1 = some name) ∧
      members.Pairwise (Apart (fields.map (·.1.toList))) := by
  have hrevision := h
  obtain @⟨kept, added, _, hkept, hadded, horder⟩ := h
  have hkeptNames : (fields.filter fun field => !deleted field.1).map
      (fun field => some field.1.toList) = kept.map fun member => decodeText? member.1 := by
    rw [← List.forall₂_eq_eq_eq, List.forall₂_map_left_iff, List.forall₂_map_right_iff]
    exact hkept.imp fun _ _ hfield => hfield.1.decode.symm
  have hunnamed : ∀ member ∈ added, ∀ name ∈ fields.map (·.1.toList),
      decodeText? member.1 ≠ some name := by
    intro member hmem name hname heq
    obtain ⟨-, other, hspells, hother⟩ := hadded member hmem
    obtain ⟨field, hfield, rfl⟩ := List.mem_map.mp hname
    rw [hspells.decode] at heq
    exact hother field hfield (Option.some.inj heq).symm
  constructor
  · intro member hmem
    obtain ⟨field, -, hspells, -⟩ | ⟨-, name, hspells, -⟩ := hrevision.kept_or_added hmem
    · exact ⟨field.1.toList, hspells.decode⟩
    · exact ⟨name, hspells.decode⟩
  · rw [horder.pairwise_iff Apart.symm, List.pairwise_append]
    refine ⟨?_, ?_, ?_⟩
    · have hnodup : (kept.map fun member => decodeText? member.1).Nodup := by
        rw [← hkeptNames]
        have hsome := hnames.map fun _ _ => Option.some.inj
        rw [List.map_map] at hsome
        exact hsome.sublist (List.filter_sublist.map _)
      refine (List.pairwise_map.mp hnodup).imp ?_
      intro a b hne name _ ha hb
      exact hne (ha.trans hb.symm)
    · exact List.pairwise_of_forall_mem_list fun a ha _ _ name hname hnamed =>
        absurd hnamed (hunnamed a ha name hname)
    · exact fun _ _ b hb name hname _ => hunnamed b hb name hname

/-- Of every field there is what has become of it. -/
theorem slot (h : Revision deleted changed fields members)
    (hnames : (fields.map (·.1.toList)).Nodup) {field : String × Json} (hfield : field ∈ fields) :
    Slot (deleted field.1) (changed field.1 field.2) (valueOf? field.1.toList members) := by
  obtain ⟨-, hapart⟩ := h.apart hnames
  obtain @⟨kept, added, _, hkept, hadded, horder⟩ := h
  obtain ⟨hlength, hget⟩ := List.forall₂_iff_get.mp hkept
  have hname : field.1.toList ∈ fields.map (·.1.toList) := List.mem_map_of_mem hfield
  cases hdeleted : deleted field.1 with
  | true =>
    have hnone : valueOf? field.1.toList members = none := by
      apply valueOf?_eq_none
      intro member hmem heq
      rcases List.mem_append.mp (horder.mem_iff.mp hmem) with hmem | hmem
      · -- the field of this member was not deleted, but it has the same name
        obtain ⟨i, hi, rfl⟩ := List.mem_iff_getElem.mp hmem
        have hi' : i < (fields.filter fun field => !deleted field.1).length := hlength ▸ hi
        obtain ⟨hspells, -⟩ := hget i hi' hi
        obtain ⟨hother, hnot⟩ := List.mem_filter.mp (List.getElem_mem hi')
        have hsame := List.inj_on_of_nodup_map hnames hother hfield
          (Option.some.inj (hspells.decode.symm.trans heq))
        rw [hsame, hdeleted] at hnot
        cases hnot
      · obtain ⟨-, other, hspells, hother⟩ := hadded member hmem
        rw [hspells.decode] at heq
        exact hother field hfield (Option.some.inj heq).symm
    rw [hnone]
    exact .deleted rfl
  | false =>
    have hmem : field ∈ fields.filter fun field => !deleted field.1 := by
      simp [hfield, hdeleted]
    obtain ⟨i, hi, heq⟩ := List.mem_iff_getElem.mp hmem
    obtain ⟨hspells, hvalue⟩ := hget i hi (hlength ▸ hi)
    rw [List.get_eq_getElem, List.get_eq_getElem, heq] at hspells hvalue
    have hmember :=
      horder.mem_iff.mpr (List.mem_append_left added (List.getElem_mem (hlength ▸ hi)))
    rw [valueOf?_eq_some hapart hname hmember hspells.decode]
    exact .kept rfl hvalue

/-- The fields of a revised record are what has become of them. -/
theorem slots (h : Revision deleted changed fields members) (names : List Text)
    (hfields : fields.map (·.1.toList) = names) (hnames : names.Nodup) :
    ∃ slot : String → Option Json,
      fields? names (.object members) = some (fields.map fun field => slot field.1) ∧
      ∀ field ∈ fields, Slot (deleted field.1) (changed field.1 field.2) (slot field.1) := by
  subst hfields
  refine ⟨fun name => valueOf? name.toList members, ?_, fun field hfield => h.slot hnames hfield⟩
  obtain ⟨hkeys, hapart⟩ := h.apart hnames
  rw [fields?, sortMembers_eq hnames hkeys hapart fun _ _ _ _ _ => rfl, List.map_map]
  rfl

end Revision

/-! ## Written records -/

/-- The fields of a written record are its values in order. -/
theorem fields?_record {names : List Text} {members : List (String × Json)}
    (hmembers : members.map (·.1.toList) = names) (hnames : names.Nodup) :
    fields? names (record members) = some (members.map fun member => some member.2) := by
  have hrevision : Revision (fun _ => false) (fun _ old new => new = old) members
      (members.map fun member => (encodeText member.1.toList, member.2)) :=
    .refl fun _ _ => rfl
  obtain ⟨slot, hfields, hslots⟩ := hrevision.slots names hmembers hnames
  rw [record, hfields]
  congr 1
  apply List.map_congr_left
  intro member hmem
  have hslot := hslots member hmem
  generalize slot member.1 = found at hslot ⊢
  cases hslot with
  | deleted h => cases h
  | kept _ hvalue => rw [hvalue]

/-- A record of written values is a written value. -/
theorem written_record_iff {fields : List (String × Json)} :
    (Json.record fields).Written ↔ ∀ field ∈ fields, field.2.Written := by
  constructor
  · rintro (_ | _ | _ | _ | _ | ⟨-, hvalues⟩) field hfield
    exact hvalues _ (List.mem_map_of_mem hfield)
  · intro h
    apply Written.object
    · intro member hmember
      obtain ⟨field, -, rfl⟩ := List.mem_map.mp hmember
      exact isBody_encodeText _
    · intro member hmember
      obtain ⟨field, hfield, rfl⟩ := List.mem_map.mp hmember
      exact h field hfield

end Json

/-- A field that is given is read from its value. -/
@[simp]
theorem fieldOr_some {α : Type} (default_ : α) (read : Json → Option α) (value : Json) :
    fieldOr default_ read (some value) = read value := by
  rw [fieldOr]

end ScratchEditor

import SqlStatement.Statement

/-!
# The fields a statement names

* `Filter.Has`: the fields of the conditions of a filter, at any depth.
* `Select.Uses`, `Update.Uses`: the fields a statement names outside its joins.
* `Mentions`: the aliases in front of them.
-/

namespace SqlStatement

/-- A condition of the tree is on this field, at any depth. -/
inductive Filter.Has : Filter → String → Prop
  | condition {f : Filter} {c : Condition} : c ∈ f.conditions → Filter.Has f c.field
  | wrapped {f w : Filter} {field : String} : f.wrapped = some w → Filter.Has w field →
      Filter.Has f field
  | group {f g : Filter} {field : String} : g ∈ f.groups → Filter.Has g field →
      Filter.Has f field

/-- The fields a select names outside its joins. -/
inductive Select.Uses (s : Select) : String → Prop
  | selected {f : SelectField} : f ∈ s.selection.fields → Uses s f.field
  | correlated {j : JsonSelect} : j ∈ s.json → Uses s j.outer
  | tabled {t : JsonTable} {source : JsonSource} : t ∈ s.selection.jsonTables →
      t.source = some source → Uses s source.field
  | grouped {field : String} : field ∈ s.selection.group → Uses s field
  | ordered {o : OrderField} : o ∈ s.selection.order → Uses s o.field
  | filtered {field : String} : s.filter.Has field → Uses s field

/-- The fields an update names outside its joins. -/
inductive Update.Uses (u : Update) : String → Prop
  | assigned {a : Assignment} : a ∈ u.fields → Uses u a.field
  | removed {r : JsonRemoval} : u.removal = some r → Uses u r.field
  | filtered {field : String} : u.filter.Has field → Uses u field

/-- An alias stands in front of one of these fields. -/
def Mentions (uses : String → Prop) (a : String) : Prop :=
  ∃ field, uses field ∧ Field.qualifier? field = some a

mutual

theorem Filter.has_of_mem_fields : ∀ (f : Filter) {field : String}, field ∈ f.fields → f.Has field
  | ⟨none, conditions, groups⟩, field, h => by
    rw [Filter.fields, List.mem_append] at h
    rcases h with h | h
    · obtain ⟨g, hg, hHas⟩ := Filter.has_of_mem_groupFields groups h
      exact .group hg hHas
    · obtain ⟨c, hc, rfl⟩ := List.mem_map.mp h
      exact .condition hc
  | ⟨some wrapped, conditions, groups⟩, field, h => by
    rw [Filter.fields, List.mem_append, List.mem_append] at h
    rcases h with (h | h) | h
    · exact .wrapped rfl (Filter.has_of_mem_fields wrapped h)
    · obtain ⟨g, hg, hHas⟩ := Filter.has_of_mem_groupFields groups h
      exact .group hg hHas
    · obtain ⟨c, hc, rfl⟩ := List.mem_map.mp h
      exact .condition hc

theorem Filter.has_of_mem_groupFields : ∀ (groups : List Filter) {field : String},
    field ∈ Filter.groupFields groups → ∃ g ∈ groups, g.Has field
  | [], _, h => absurd h List.not_mem_nil
  | f :: rest, field, h => by
    rw [Filter.groupFields, List.mem_append] at h
    rcases h with h | h
    · exact ⟨f, List.mem_cons_self, Filter.has_of_mem_fields f h⟩
    · obtain ⟨g, hg, hHas⟩ := Filter.has_of_mem_groupFields rest h
      exact ⟨g, List.mem_cons_of_mem f hg, hHas⟩

end

theorem Filter.mem_groupFields {field : String} {groups : List Filter} {g : Filter}
    (hg : g ∈ groups) (h : field ∈ g.fields) : field ∈ Filter.groupFields groups := by
  induction groups with
  | nil => exact absurd hg List.not_mem_nil
  | cons f rest ih =>
    rw [groupFields, List.mem_append]
    rcases List.mem_cons.mp hg with rfl | hg
    · exact .inl h
    · exact .inr (ih hg)

theorem Filter.mem_fields_iff {f : Filter} {field : String} : field ∈ f.fields ↔ f.Has field := by
  constructor
  · exact has_of_mem_fields f
  · intro h
    induction h with
    | @condition f c hc =>
      obtain ⟨_ | wrapped, conditions, groups⟩ := f
      · exact List.mem_append_right _ (List.mem_map_of_mem hc)
      · exact List.mem_append_right _ (List.mem_map_of_mem hc)
    | @wrapped f w field hw _ ih =>
      obtain ⟨_ | wrapped, conditions, groups⟩ := f
      · cases hw
      · obtain rfl := Option.some.inj hw
        exact List.mem_append_left _ (List.mem_append_left _ ih)
    | @group f g field hg _ ih =>
      obtain ⟨_ | wrapped, conditions, groups⟩ := f
      · exact List.mem_append_left _ (mem_groupFields hg ih)
      · exact List.mem_append_left _ (List.mem_append_right _ (mem_groupFields hg ih))

theorem Select.mem_mentioned_iff {s : Select} {field : String} :
    field ∈ s.mentioned ↔ s.Uses field := by
  simp only [mentioned, List.mem_append, List.mem_map, List.mem_flatMap, Filter.mem_fields_iff]
  constructor
  · rintro (((((⟨f, hf, rfl⟩ | ⟨j, hj, rfl⟩) | ⟨t, ht, h⟩) | h) | ⟨o, ho, rfl⟩) | h)
    · exact .selected hf
    · exact .correlated hj
    · rw [JsonTable.sourceFields, Option.mem_toList, Option.map_eq_some_iff] at h
      obtain ⟨source, hSource, rfl⟩ := h
      exact .tabled ht hSource
    · exact .grouped h
    · exact .ordered ho
    · exact .filtered h
  · intro h
    cases h with
    | selected hf => exact .inl (.inl (.inl (.inl (.inl ⟨_, hf, rfl⟩))))
    | correlated hj => exact .inl (.inl (.inl (.inl (.inr ⟨_, hj, rfl⟩))))
    | tabled ht hSource =>
      refine .inl (.inl (.inl (.inr ⟨_, ht, ?_⟩)))
      rw [JsonTable.sourceFields, hSource]
      exact List.mem_singleton.mpr rfl
    | grouped h => exact .inl (.inl (.inr h))
    | ordered ho => exact .inl (.inr ⟨_, ho, rfl⟩)
    | filtered h => exact .inr h

theorem Update.mem_mentioned_iff {u : Update} {field : String} :
    field ∈ u.mentioned ↔ u.Uses field := by
  simp only [mentioned, Assignments.fields, List.mem_append, List.mem_map, Option.mem_toList,
    Option.map_eq_some_iff, Filter.mem_fields_iff]
  constructor
  · rintro ((⟨a, ha, rfl⟩ | ⟨r, hr, rfl⟩) | h)
    · exact .assigned ha
    · exact .removed hr
    · exact .filtered h
  · intro h
    cases h with
    | assigned ha => exact .inl (.inl ⟨_, ha, rfl⟩)
    | removed hr => exact .inl (.inr ⟨_, hr, rfl⟩)
    | filtered h => exact .inr h

theorem mem_qualifiers_iff {mentioned : List String} {uses : String → Prop}
    (h : ∀ field, field ∈ mentioned ↔ uses field) :
    (· ∈ Field.qualifiers mentioned) = Mentions uses := by
  funext a
  simp [Field.qualifiers, Mentions, h]

end SqlStatement

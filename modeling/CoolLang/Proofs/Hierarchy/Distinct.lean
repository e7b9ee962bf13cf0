import CoolLang.Proofs.Hierarchy.Linking

/-!
Features are told apart by their names. No type has two attributes or two methods of one name, so what
changes a method by its name changes just that one (`TypeInfo.Distinct.split`).
-/

namespace CoolLang

namespace TypeInfo

structure Distinct (info : TypeInfo) : Prop where
  attributes : (info.attributes.map Attribute.name).Nodup
  methods : (info.methods.map Method.name).Nodup

variable {info : TypeInfo} {method changed : Method} {name : String}

theorem named_distinct (name : String) : (named name).Distinct :=
  ⟨List.nodup_nil, List.nodup_nil⟩

theorem method?_name (found : info.method? name = some method) : method.name = name := by
  simpa using List.find?_some found

/-- The methods around the one of a name, which stay where that one is changed. -/
theorem Distinct.split (distinct : info.Distinct) (found : info.method? name = some method) :
    ∃ front back, info.methods = front ++ method :: back ∧ ∀ changed : Method,
      (info.updateMethod name fun _ => changed).methods = front ++ changed :: back := by
  obtain ⟨isNamed, front, back, all, absent⟩ := List.find?_eq_some_iff_append.mp found
  have apart := distinct.methods
  rw [all, List.map_append, List.map_cons] at apart
  obtain ⟨_, inBack, _⟩ := List.nodup_append.mp apart
  have isName : method.name = name := by simpa using isNamed
  refine ⟨front, back, all, fun changed => ?_⟩
  have same (methods : List Method) (others : ∀ other ∈ methods, other.name ≠ name) :
      methods.map (fun other => if other.name = name then changed else other) = methods := by
    conv_rhs => rw [← List.map_id methods]
    exact List.map_congr_left fun other member => if_neg (others other member)
  rw [updateMethod, all, List.map_append, List.map_cons, if_pos isName]
  rw [same front fun other member => by simpa using absent other member, same back fun other member => ?_]
  intro isOther
  exact (List.nodup_cons.mp inBack).1 (List.mem_map.mpr ⟨other, member, isOther.trans isName.symm⟩)

theorem updateMethod_distinct (distinct : info.Distinct)
    (isNamed : changed.name = name) :
    (info.updateMethod name fun _ => changed).Distinct := by
  refine ⟨distinct.attributes, ?_⟩
  have names : (info.updateMethod name fun _ => changed).methods.map Method.name =
      info.methods.map Method.name := by
    rw [updateMethod, List.map_map]
    refine List.map_congr_left fun method _ => ?_
    dsimp only [Function.comp_apply]
    split
    · rename_i isName
      exact isNamed.trans isName.symm
    · rfl
  rw [names]
  exact distinct.methods

theorem putMethod_distinct (distinct : info.Distinct) (method : Method) :
    (info.putMethod method).Distinct := by
  unfold putMethod
  split
  · exact updateMethod_distinct distinct rfl
  · rename_i absent
    refine ⟨distinct.attributes, ?_⟩
    rw [List.map_append, List.map_singleton]
    refine distinct.methods.append (List.nodup_singleton _) ?_
    rw [List.disjoint_singleton]
    intro member
    obtain ⟨other, isMethod, same⟩ := List.mem_map.mp member
    exact absent (List.find?_isSome.mpr ⟨other, isMethod, by simpa using same⟩)

end TypeInfo

namespace Hierarchy

variable {hierarchy : Hierarchy}

def Distinct (hierarchy : Hierarchy) : Prop :=
  ∀ type, (hierarchy.info type).Distinct

theorem update_distinct {owner : TypeId} {change : TypeInfo → TypeInfo} (distinct : hierarchy.Distinct)
    (keeps : (change (hierarchy.info owner)).Distinct) : (hierarchy.update owner change).Distinct := by
  intro type
  rcases hierarchy.info_update owner change type with ⟨_, same⟩ | ⟨rfl, unknown | changed⟩
  · exact same ▸ distinct type
  · exact unknown ▸ TypeInfo.named_distinct ""
  · exact changed ▸ keeps

theorem Collected.distinct_features (collected : hierarchy.Collected) : hierarchy.Distinct := by
  intro type
  obtain ⟨noAttributes, noMethods⟩ := collected.featureless type
  exact ⟨noAttributes ▸ List.nodup_nil, noMethods ▸ List.nodup_nil⟩

theorem setParent_distinct (distinct : hierarchy.Distinct) (type parent : TypeId) :
    (hierarchy.setParent type parent).Distinct :=
  update_distinct distinct ⟨(distinct type).attributes, (distinct type).methods⟩

theorem defineFeature_distinct (distinct : hierarchy.Distinct) (type : TypeId) (feature : Feature) :
    (defineFeature type hierarchy feature).1.Distinct := by
  rcases feature with decl | decl
  · unfold defineFeature defineAttribute
    dsimp only
    split
    · exact distinct
    · rename_i absent
      refine update_distinct distinct ⟨?_, (distinct type).methods⟩
      rw [List.map_append, List.map_singleton]
      refine (distinct type).attributes.append (List.nodup_singleton _) ?_
      rw [List.disjoint_singleton]
      intro member
      obtain ⟨other, isAttribute, same⟩ := List.mem_map.mp member
      exact List.find?_eq_none.mp absent other isAttribute (by simpa using same)
  · unfold defineFeature defineMethod
    dsimp only
    split
    · exact distinct
    · exact update_distinct distinct (TypeInfo.putMethod_distinct (distinct type) _)

theorem linkParent_distinct (distinct : hierarchy.Distinct) (typed : ClassDecl × TypeId) :
    (hierarchy.linkParent typed).1.Distinct :=
  setParent_distinct distinct _ _

theorem breakCycle_distinct (distinct : hierarchy.Distinct) (typed : ClassDecl × TypeId) :
    (hierarchy.breakCycle typed).1.Distinct := by
  unfold breakCycle
  dsimp only
  split
  · exact setParent_distinct distinct _ _
  · exact distinct

theorem defineFeatures_distinct (distinct : hierarchy.Distinct) (typed : ClassDecl × TypeId) :
    (hierarchy.defineFeatures typed).1.Distinct :=
  reportEach_keeps (p := Distinct)
    (fun _ feature distinct => defineFeature_distinct distinct typed.2 feature) distinct typed.1.features

theorem Collected.build_distinct {program : Program} {types : ClassTypes}
    (collected : hierarchy.Collected) : (hierarchy.build program types).1.Distinct := by
  have start : hierarchy.defineBuiltins.Distinct := by
    unfold defineBuiltins
    refine List.foldlRecOn builtinMethods _ collected.distinct_features fun state distinct builtin _ => ?_
    exact update_distinct distinct (TypeInfo.putMethod_distinct (distinct _) _)
  have linked := reportEach_keeps (p := Distinct)
    (fun _ typed distinct => linkParent_distinct distinct typed) start (program.typed types)
  have acyclic := reportEach_keeps (p := Distinct)
    (fun _ typed distinct => breakCycle_distinct distinct typed) linked (program.typed types)
  exact reportEach_keeps (p := Distinct)
    (fun _ typed distinct => defineFeatures_distinct distinct typed) acyclic (program.typed types)

end Hierarchy

end CoolLang

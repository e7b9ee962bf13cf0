import CoolLang.Analysis.Transport
import CoolLang.Proofs.Hierarchy.Bare
import Mathlib.Data.List.Basic

/-!
Hierarchies at other positions. Where a hierarchy is asked for types, positions do not matter; where it is asked
for the feature that is declared at a position, they do, so there they have to stay apart. Collecting and building
only hand positions on: they make of a program that has been moved what they make of the program, moved
(`Hierarchy.collect_relocate`, `Hierarchy.build_relocate`).
-/

namespace CoolLang

variable {move : Position → Position}

/-! ### Lookups -/

namespace TypeInfo

variable {info : TypeInfo} {name : String} {position : Position}

theorem attribute?_relocate :
    (info.relocate move).attribute? name = (info.attribute? name).map (Attribute.relocate move) :=
  List.find?_map ..

theorem method?_relocate : (info.relocate move).method? name = (info.method? name).map (Method.relocate move) :=
  List.find?_map ..

theorem attributeAt?_relocate (apart : Function.Injective move) :
    (info.relocate move).attributeAt? name (move position) =
      (info.attributeAt? name position).map (Attribute.relocate move) := by
  have same : ((fun attr : Attribute => attr.name == name && attr.position == move position) ∘
      Attribute.relocate move) = fun attr => attr.name == name && attr.position == position := by
    funext attr
    refine congrArg (attr.name == name && ·) (Bool.eq_iff_iff.mpr ?_)
    rw [beq_iff_eq, beq_iff_eq]
    exact apart.eq_iff
  rw [attributeAt?, attributeAt?, ← same]
  exact List.find?_map ..

theorem methodAt?_relocate (apart : Function.Injective move) :
    (info.relocate move).methodAt? name (move position) =
      (info.methodAt? name position).map (Method.relocate move) := by
  have same : ((fun method : Method => method.position == move position) ∘ Method.relocate move) =
      fun method => method.position == position := by
    funext method
    refine Bool.eq_iff_iff.mpr ?_
    rw [Function.comp_apply, beq_iff_eq, beq_iff_eq]
    exact apart.eq_iff
  rw [methodAt?, methodAt?, method?_relocate, ← same]
  exact Option.filter_map ..

theorem updateMethod_relocate {change change' : Method → Method}
    (same : ∀ method, change' (method.relocate move) = (change method).relocate move) :
    (info.relocate move).updateMethod name change' = (info.updateMethod name change).relocate move := by
  unfold updateMethod relocate
  dsimp only
  rw [List.map_map, List.map_map]
  refine congrArg (fun methods => TypeInfo.mk _ _ _ methods _) (List.map_congr_left fun method _ => ?_)
  rw [Function.comp_apply, Function.comp_apply]
  by_cases isNamed : method.name = name
  · rw [if_pos isNamed, if_pos (show (method.relocate move).name = name from isNamed), same]
  · rw [if_neg isNamed, if_neg (show (method.relocate move).name ≠ name from isNamed)]

theorem putMethod_relocate (method : Method) :
    (info.relocate move).putMethod (method.relocate move) = (info.putMethod method).relocate move := by
  unfold putMethod
  rw [show (method.relocate move).name = method.name from rfl, method?_relocate, Option.isSome_map]
  split
  · exact updateMethod_relocate fun _ => rfl
  · unfold relocate
    rw [List.map_append]
    rfl

end TypeInfo

namespace Hierarchy

variable {hierarchy : Hierarchy} {type : TypeId} {name : String}

theorem info_relocate (type : TypeId) : (hierarchy.relocate move).info type = (hierarchy.info type).relocate move := by
  unfold info relocate
  dsimp only
  rw [Array.getElem?_map]
  cases hierarchy.types[type.index]? <;> rfl

/-- In its types, a hierarchy that has been moved is as it was. -/
theorem alike_relocate (move : Position → Position) (hierarchy : Hierarchy) :
    (hierarchy.relocate move).Alike hierarchy := by
  unfold Alike bare relocate
  dsimp only
  rw [Array.map_map]
  rfl

theorem update_relocate {change change' : TypeInfo → TypeInfo}
    (same : ∀ info, change' (info.relocate move) = (change info).relocate move) :
    (hierarchy.relocate move).update type change' = (hierarchy.update type change).relocate move := by
  unfold update relocate
  dsimp only
  congr 1
  apply Array.ext_getElem?
  intro place
  rw [Array.getElem?_modify, Array.getElem?_map, Array.getElem?_map, Array.getElem?_modify]
  split
  · cases hierarchy.types[place]? with
    | none => rfl
    | some info => exact congrArg some (same info)
  · rfl

theorem findSome?_relocate {α : Type} {find find' : TypeId → Option α} {change : α → α}
    (same : ∀ owner, find' owner = (find owner).map change) (owners : List TypeId) :
    owners.findSome? (fun owner => (find' owner).map fun found => (owner, found)) =
      (owners.findSome? fun owner => (find owner).map fun found => (owner, found)).map (Prod.map id change) := by
  induction owners with
  | nil => rfl
  | cons owner owners ih =>
      rw [List.findSome?_cons, List.findSome?_cons, same]
      cases find owner with
      | none => exact ih
      | some found => rfl

theorem attribute?_relocate : (hierarchy.relocate move).attribute? type name =
    (hierarchy.attribute? type name).map (Prod.map id (Attribute.relocate move)) := by
  rw [attribute?, attribute?, (hierarchy.alike_relocate move).ancestors]
  exact findSome?_relocate (fun owner => by rw [info_relocate, TypeInfo.attribute?_relocate]) _

theorem method?_relocate : (hierarchy.relocate move).method? type name =
    (hierarchy.method? type name).map (Prod.map id (Method.relocate move)) := by
  rw [method?, method?, (hierarchy.alike_relocate move).ancestors]
  exact findSome?_relocate (fun owner => by rw [info_relocate, TypeInfo.method?_relocate]) _

end Hierarchy

/-! ### Programs -/

namespace Program

theorem typed_relocate (program : Program) (types : ClassTypes) :
    (program.relocate move).typed types = (program.typed types).map (Prod.map (ClassDecl.relocate move) id) := by
  obtain ⟨decls⟩ := program
  unfold typed relocate
  dsimp only
  rw [List.zip_map_left, List.filterMap_map, List.map_filterMap]
  refine List.filterMap_congr fun entry _ => ?_
  obtain ⟨decl, _ | type⟩ := entry <;> rfl

end Program

/-! ### Passes -/

/-- Whether diagnostics are changed as their positions are moved, but for one that is said of a whole program. -/
def Tells (move : Position → Position) (tell : Diagnostic → Diagnostic) : Prop :=
  ∀ position problem, problem ≠ .missingMain → tell ⟨position, problem⟩ = ⟨move position, problem⟩

theorem HierarchyError.problem_ne_missingMain (error : HierarchyError) : error.problem ≠ .missingMain := by
  cases error <;> exact Problem.noConfusion

/-- What is left of a pass and reported by it, with both changed. -/
def Reported.change {σ : Type} (change : σ → σ) (tell : Diagnostic → Diagnostic) (reported : Reported σ) :
    Reported σ :=
  (change reported.1, reported.2.map tell)

theorem reportEach_change {σ α β : Type} {step : σ → α → Reported σ} {step' : σ → β → Reported σ}
    {change : σ → σ} {tell : Diagnostic → Diagnostic} {other : α → β}
    (same : ∀ state item, step' (change state) (other item) = (step state item).change change tell) (state : σ)
    (items : List α) : reportEach step' (change state) (items.map other) =
      (reportEach step state items).change change tell := by
  induction items generalizing state with
  | nil => rfl
  | cons item items ih =>
      rw [List.map_cons, reportEach, reportEach, same]
      dsimp only [Reported.change]
      rw [ih, List.map_append]
      rfl

namespace Hierarchy

variable {hierarchy : Hierarchy} {tell : Diagnostic → Diagnostic} (tells : Tells move tell)
include tells

theorem collectAll_relocate (decls : List ClassDecl) :
    (hierarchy.relocate move).collectAll (decls.map (ClassDecl.relocate move)) =
      ((hierarchy.collectAll decls).1.relocate move, (hierarchy.collectAll decls).2.1,
        (hierarchy.collectAll decls).2.2.map tell) := by
  induction decls generalizing hierarchy with
  | nil => rfl
  | cons decl decls ih =>
      have isName : (decl.relocate move).name.name = decl.name.name := rfl
      rw [List.map_cons, collectAll, collectAll, create, create, (hierarchy.alike_relocate move).find?, isName]
      cases hierarchy.find? decl.name.name with
      | some type =>
          dsimp only
          rw [ih, List.map_cons, tells _ _ (HierarchyError.problem_ne_missingMain _)]
          rfl
      | none =>
          have next : (⟨(hierarchy.relocate move).types.push (.named decl.name.name)⟩ : Hierarchy) =
              Hierarchy.relocate move ⟨hierarchy.types.push (.named decl.name.name)⟩ := by
            unfold relocate
            rw [Array.map_push]
            rfl
          dsimp only
          rw [next, ih, (hierarchy.alike_relocate move).size]

theorem declaredParent_relocate (decl : ClassDecl) :
    (hierarchy.relocate move).declaredParent (decl.relocate move) = (hierarchy.declaredParent decl).change id tell := by
  obtain ⟨name, _ | written, features, position⟩ := decl
  · rfl
  · unfold declaredParent ClassDecl.relocate
    rw [(hierarchy.alike_relocate move).get]
    dsimp only [Option.map_some, Ident.relocate]
    cases hierarchy.get written.name with
    | error error =>
        exact congrArg (fun diagnostic => (TypeId.object, [diagnostic])) (tells _ _ error.problem_ne_missingMain).symm
    | ok parent =>
        dsimp only
        rw [(hierarchy.alike_relocate move).isSealed]
        split
        · exact congrArg (fun diagnostic => (TypeId.object, [diagnostic])) (tells _ _ Problem.noConfusion).symm
        · rfl

theorem linkParent_relocate (class' : ClassDecl × TypeId) :
    (hierarchy.relocate move).linkParent (class'.1.relocate move, class'.2) =
      (hierarchy.linkParent class').change (relocate move) tell := by
  unfold linkParent
  rw [declaredParent_relocate tells]
  exact Prod.ext (update_relocate fun _ => rfl) rfl

theorem breakCycle_relocate (class' : ClassDecl × TypeId) :
    (hierarchy.relocate move).breakCycle (class'.1.relocate move, class'.2) =
      (hierarchy.breakCycle class').change (relocate move) tell := by
  unfold breakCycle isOnCycle
  rw [(hierarchy.alike_relocate move).ancestors]
  dsimp only
  split
  · refine Prod.ext (update_relocate fun _ => rfl) ?_
    exact congrArg (fun diagnostic => [diagnostic]) (tells _ _ Problem.noConfusion).symm
  · rfl

theorem resolve_relocate (written : Ident) : (hierarchy.relocate move).resolve (written.relocate move) =
    (hierarchy.resolve written).change id tell := by
  have isName : (written.relocate move).name = written.name := rfl
  rw [resolve, resolve, (hierarchy.alike_relocate move).get, isName]
  cases hierarchy.get written.name with
  | ok type => rfl
  | error error =>
      exact congrArg (fun diagnostic => (TypeId.error, [diagnostic]))
        (tells _ _ error.problem_ne_missingMain).symm

theorem resolveParam_relocate (param : Param) :
    (hierarchy.relocate move).resolveParam ⟨param.name.relocate move, param.type.relocate move⟩ =
      (hierarchy.resolveParam param).change id tell := by
  unfold resolveParam
  rw [resolve_relocate tells]
  dsimp only [Reported.change, id]
  split
  · refine Prod.ext rfl ?_
    rw [List.map_append]
    exact congrArg (fun diagnostic => _ ++ [diagnostic]) (tells _ _ Problem.noConfusion).symm
  · rfl

theorem orReport_relocate (hierarchy : Hierarchy) (position : Position)
    {outcome outcome' : Except HierarchyError Hierarchy}
    (same : outcome' = outcome.map (relocate move)) : (hierarchy.relocate move).orReport (move position) outcome' =
      (hierarchy.orReport position outcome).change (relocate move) tell := by
  subst same
  cases outcome with
  | ok next => rfl
  | error error =>
      exact congrArg (fun diagnostic => (hierarchy.relocate move, [diagnostic]))
        (tells _ _ error.problem_ne_missingMain).symm

omit tells in
theorem defineAttribute_relocate (type : TypeId) (attr : Attribute) :
    (hierarchy.relocate move).defineAttribute type (attr.relocate move) =
      (hierarchy.defineAttribute type attr).map (relocate move) := by
  have isName : (attr.relocate move).name = attr.name := rfl
  unfold defineAttribute
  dsimp only
  rw [info_relocate, isName, TypeInfo.attribute?_relocate]
  cases (hierarchy.info type).attribute? attr.name with
  | some known => rfl
  | none =>
      refine congrArg Except.ok (update_relocate fun info => ?_)
      unfold TypeInfo.relocate
      rw [List.map_append]
      rfl

omit tells in
theorem defineMethod_relocate (type : TypeId) (method : Method) :
    (hierarchy.relocate move).defineMethod type (method.relocate move) =
      (hierarchy.defineMethod type method).map (relocate move) := by
  have isName : (method.relocate move).name = method.name := rfl
  unfold defineMethod
  dsimp only
  rw [info_relocate, isName, TypeInfo.method?_relocate]
  cases (hierarchy.info type).method? method.name with
  | some known => rfl
  | none => exact congrArg Except.ok (update_relocate fun info => info.putMethod_relocate method)

theorem defineFeature_relocate (type : TypeId) (feature : Feature) :
    (hierarchy.relocate move).defineFeature type (feature.relocate move) =
      (hierarchy.defineFeature type feature).change (relocate move) tell := by
  rcases feature with decl | decl
  · unfold defineFeature Feature.relocate
    dsimp only
    rw [resolve_relocate tells]
    have refused := orReport_relocate tells hierarchy decl.name.position (hierarchy.defineAttribute_relocate type
      ⟨decl.name.name, (hierarchy.resolve decl.type).1, decl.name.position⟩)
    obtain ⟨left, reported⟩ := Prod.ext_iff.mp refused
    exact Prod.ext left ((congrArg (_ ++ ·) reported).trans List.map_append.symm)
  · unfold defineFeature Feature.relocate
    dsimp only
    have params : (decl.params.map fun param => (⟨param.name.relocate move, param.type.relocate move⟩ : Param)).map
        (hierarchy.relocate move).resolveParam =
          (decl.params.map hierarchy.resolveParam).map (Reported.change id tell) := by
      rw [List.map_map, List.map_map]
      exact List.map_congr_left fun param _ => resolveParam_relocate tells param
    have names : ((decl.params.map hierarchy.resolveParam).map (Reported.change id tell)).map Prod.fst =
        (decl.params.map hierarchy.resolveParam).map Prod.fst := by
      rw [List.map_map]
      rfl
    have reports : ((decl.params.map hierarchy.resolveParam).map (Reported.change id tell)).flatMap Prod.snd =
        ((decl.params.map hierarchy.resolveParam).flatMap Prod.snd).map tell := by
      rw [List.flatMap_map, List.map_flatMap]
      rfl
    rw [params, names, reports, resolve_relocate tells]
    have refused := orReport_relocate tells hierarchy decl.name.position (hierarchy.defineMethod_relocate type
      (.declared decl.name.name ((decl.params.map hierarchy.resolveParam).map Prod.fst)
        (hierarchy.resolve decl.result).1 decl.name.position))
    obtain ⟨left, reported⟩ := Prod.ext_iff.mp refused
    refine Prod.ext left ((congrArg (_ ++ ·) reported).trans ?_)
    dsimp only [Reported.change]
    rw [List.map_append, List.map_append]

theorem defineFeatures_relocate (class' : ClassDecl × TypeId) :
    (hierarchy.relocate move).defineFeatures (class'.1.relocate move, class'.2) =
      (hierarchy.defineFeatures class').change (relocate move) tell :=
  reportEach_change (fun _ feature => defineFeature_relocate tells class'.2 feature) hierarchy class'.1.features

omit tells in
theorem sameSignature_relocate (left right : Method) :
    sameSignature (left.relocate move) (right.relocate move) = sameSignature left right :=
  rfl

theorem overrides_relocate (type : TypeId) :
    (hierarchy.relocate move).overrides type = (hierarchy.overrides type).map tell := by
  have alike := hierarchy.alike_relocate move
  unfold overrides
  rw [alike.parent?, info_relocate]
  cases hierarchy.parent? type with
  | none => rfl
  | some parent =>
      dsimp only [TypeInfo.relocate]
      rw [List.filterMap_map, List.filterMap_map, List.map_append, List.map_filterMap, List.map_filterMap]
      refine congrArg₂ (· ++ ·) (List.filterMap_congr fun attr _ => ?_) (List.filterMap_congr fun method _ => ?_)
      · have isName : (attr.relocate move).name = attr.name := rfl
        rw [Function.comp_apply, attributeOverride?, attributeOverride?, isName, attribute?_relocate, Option.map_map,
          Option.map_map]
        cases hierarchy.attribute? parent attr.name with
        | none => rfl
        | some found =>
            refine congrArg some (Eq.trans ?_ (tells _ _ Problem.noConfusion).symm)
            exact congrArg (fun owner => Diagnostic.mk (move attr.position) (.duplicateAttribute attr.name owner))
              (alike.name found.1)
      · have isName : (method.relocate move).name = method.name := rfl
        rw [Function.comp_apply, methodOverride?, methodOverride?, isName, method?_relocate]
        cases hierarchy.method? parent method.name with
        | none => rfl
        | some found =>
            obtain ⟨owner, inherited⟩ := found
            dsimp only [Option.map_some, Prod.map_apply, id]
            rw [sameSignature_relocate]
            split
            · rfl
            · refine congrArg some (Eq.trans ?_ (tells _ _ Problem.noConfusion).symm)
              exact congrArg₂
                (fun name owner => Diagnostic.mk (move method.position) (.wrongOverride method.name name owner))
                (alike.name type) (alike.name owner)

omit tells in
/-- The built-in methods stand at no position of a program. -/
theorem defineBuiltins_relocate (stays : move .builtin = .builtin) :
    (hierarchy.relocate move).defineBuiltins = hierarchy.defineBuiltins.relocate move := by
  have all : ∀ entry ∈ builtinMethods, entry.2.position = .builtin := by decide
  unfold defineBuiltins
  generalize builtinMethods = entries at all
  induction entries generalizing hierarchy with
  | nil => rfl
  | cons entry entries ih =>
      obtain ⟨first, later⟩ := List.forall_mem_cons.mp all
      obtain ⟨owner, method⟩ := entry
      have same : method.relocate move = method := by
        obtain ⟨name, params, result, position⟩ := method
        obtain rfl : position = .builtin := first
        exact congrArg (Method.mk name params result) stays
      rw [List.foldl_cons, List.foldl_cons, ← ih later]
      refine congrArg (fun start : Hierarchy => entries.foldl _ start) (update_relocate fun info => ?_)
      rw [← info.putMethod_relocate, same]

omit tells in
theorem missingMain_relocate {typed : List (ClassDecl × TypeId)}
    (main : ∀ position, tell ⟨position, .missingMain⟩ =
      ⟨if ∃ class' ∈ typed, class'.1.name.name = "Main" then move position else .first, .missingMain⟩) :
    (hierarchy.relocate move).missingMain (typed.map (Prod.map (ClassDecl.relocate move) id)) =
      (hierarchy.missingMain typed).map tell := by
  unfold missingMain
  have found : (typed.map (Prod.map (ClassDecl.relocate move) id)).find? (fun class' => class'.1.name.name == "Main") =
      (typed.find? fun class' => class'.1.name.name == "Main").map (Prod.map (ClassDecl.relocate move) id) :=
    List.find?_map ..
  dsimp only
  rw [found]
  cases isMain : typed.find? fun class' => class'.1.name.name == "Main" with
  | none =>
      have none : ¬∃ class' ∈ typed, class'.1.name.name = "Main" := by
        rintro ⟨class', member, isNamed⟩
        exact List.find?_eq_none.mp isMain class' member (beq_iff_eq.mpr isNamed)
      have told := main .first
      rw [if_neg none] at told
      exact congrArg (fun diagnostic => [diagnostic]) told.symm
  | some class' =>
      have isNamed : (class'.1.name.name == "Main") = true :=
        @List.find?_some _ (fun class' : ClassDecl × TypeId => class'.1.name.name == "Main") _ _ isMain
      have exists' : ∃ class' ∈ typed, class'.1.name.name = "Main" :=
        ⟨class', List.mem_of_find?_eq_some isMain, beq_iff_eq.mp isNamed⟩
      have told := main class'.1.position
      rw [if_pos exists'] at told
      have same : ((hierarchy.relocate move).method? class'.2 "main").any (fun found => found.2.params.isEmpty) =
          (hierarchy.method? class'.2 "main").any fun found => found.2.params.isEmpty := by
        rw [method?_relocate, Option.any_map]
        rfl
      simp only [Option.map_some, Option.bind_some, Prod.map_snd, Prod.map_fst, id, same, Option.elim_some]
      split
      · rfl
      · exact congrArg (fun diagnostic => [diagnostic]) told.symm

/-- Building makes of a program that has been moved what it makes of the program, moved. -/
theorem build_relocate (stays : move .builtin = .builtin) {program : Program} {types : ClassTypes}
    (main : ∀ position, tell ⟨position, .missingMain⟩ =
      ⟨if ∃ class' ∈ program.typed types, class'.1.name.name = "Main" then move position else .first,
        .missingMain⟩) :
    (hierarchy.relocate move).build (program.relocate move) types =
      (hierarchy.build program types).change (relocate move) tell := by
  unfold build
  dsimp only
  rw [defineBuiltins_relocate stays, program.typed_relocate]
  generalize program.typed types = typed at main
  have linked : reportEach linkParent (hierarchy.defineBuiltins.relocate move)
      (typed.map (Prod.map (ClassDecl.relocate move) id)) = _ :=
    reportEach_change (fun hierarchy class' => @linkParent_relocate _ hierarchy _ tells class') _ typed
  have acyclic (start : Hierarchy) : reportEach breakCycle (start.relocate move)
      (typed.map (Prod.map (ClassDecl.relocate move) id)) = _ :=
    reportEach_change (fun hierarchy class' => @breakCycle_relocate _ hierarchy _ tells class') start typed
  have defined (start : Hierarchy) : reportEach defineFeatures (start.relocate move)
      (typed.map (Prod.map (ClassDecl.relocate move) id)) = _ :=
    reportEach_change (fun hierarchy class' => @defineFeatures_relocate _ hierarchy _ tells class') start typed
  rw [linked]
  dsimp only [Reported.change]
  rw [acyclic]
  dsimp only [Reported.change]
  rw [defined]
  dsimp only [Reported.change]
  rw [missingMain_relocate main, List.flatMap_map]
  simp only [List.map_append, List.map_flatMap, Prod.map_snd, id, overrides_relocate tells]

end Hierarchy

end CoolLang

import CoolLang.Proofs.Hierarchy.Signatures

/-!
Classes without their features. A name, a parent and a position are all that collecting and linking look at in a class.
So the hierarchies of programs whose classes differ in features only differ in features only
(`Hierarchy.build_alike`).
-/

namespace CoolLang

/-- A class without its features. -/
def ClassDecl.head (decl : ClassDecl) : ClassDecl :=
  { decl with features := [] }

theorem Program.map_head_typed {one two : List ClassDecl} (same : one.map ClassDecl.head = two.map ClassDecl.head)
    (types : ClassTypes) :
    (typed ⟨one⟩ types).map (Prod.map ClassDecl.head id) = (typed ⟨two⟩ types).map (Prod.map ClassDecl.head id) := by
  have heads (decls : List ClassDecl) : (typed ⟨decls⟩ types).map (Prod.map ClassDecl.head id) =
      typed ⟨decls.map ClassDecl.head⟩ types := by
    unfold typed
    rw [List.zip_map_left, List.filterMap_map, List.map_filterMap]
    refine List.filterMap_congr fun entry _ => ?_
    obtain ⟨decl, _ | type⟩ := entry <;> rfl
  rw [heads, heads, same]

/-- What a step makes of an item, it makes of all items that it takes for the same. -/
theorem reportEach_congr {σ α : Type} {mark : α → α} {items others : List α}
    (same : items.map mark = others.map mark) {step : σ → α → Reported σ}
    (marks : ∀ state item, step state (mark item) = step state item) (state : σ) :
    reportEach step state items = reportEach step state others := by
  have marked (items : List α) : reportEach step state (items.map mark) = reportEach step state items := by
    induction items generalizing state with
    | nil => rfl
    | cons item items ih =>
        rw [List.map_cons, reportEach, reportEach, marks]
        dsimp only
        rw [ih]
  rw [← marked items, same, marked]

namespace Hierarchy

variable {one two : List ClassDecl} (same : one.map ClassDecl.head = two.map ClassDecl.head)
include same

theorem collectAll_of_heads (hierarchy : Hierarchy) : hierarchy.collectAll one = hierarchy.collectAll two := by
  have heads (decls : List ClassDecl) :
      hierarchy.collectAll (decls.map ClassDecl.head) = hierarchy.collectAll decls := by
    induction decls generalizing hierarchy with
    | nil => rfl
    | cons decl decls ih =>
        rw [List.map_cons, collectAll, collectAll]
        simp only [ih]
        rfl
  rw [← heads one, same, heads]

/-- The hierarchies of classes that differ in features only differ in features only. -/
theorem build_alike (hierarchy : Hierarchy) (types : ClassTypes) :
    (hierarchy.build ⟨one⟩ types).1.Alike (hierarchy.build ⟨two⟩ types).1 := by
  have typed := Program.map_head_typed same types
  unfold build
  dsimp only
  have linked := reportEach_congr typed fun state class' => show linkParent state _ = linkParent state class' from rfl
  have acyclic := reportEach_congr typed fun state class' => show breakCycle state _ = breakCycle state class' from rfl
  rw [linked, acyclic]
  exact (defineAllFeatures_alike _ _).trans (defineAllFeatures_alike _ _).symm

end Hierarchy

/-! ### Features -/

/-- A declaration is introduced where it is the first of its name. -/
theorem mem_introduced_iff {α : Type} {name : α → String} {taken : List String} {front back : List α} {decl : α}
    (once : (front ++ decl :: back).Nodup) :
    decl ∈ introduced name taken (front ++ decl :: back) ↔
      name decl ∉ taken ∧ ∀ other ∈ front, name other ≠ name decl := by
  induction front generalizing taken with
  | nil =>
      obtain ⟨absent, _⟩ := List.nodup_cons.mp once
      rw [List.nil_append, introduced]
      split
      · rename_i isTaken
        exact ⟨fun member => absurd (mem_of_introduced member) absent, fun free => absurd isTaken free.1⟩
      · rename_i free
        exact ⟨fun _ => ⟨free, fun _ member => absurd member List.not_mem_nil⟩, fun _ => List.mem_cons_self⟩
  | cons first front ih =>
      obtain ⟨absent, once⟩ := List.nodup_cons.mp once
      have other : decl ≠ first := by
        rintro rfl
        exact absent (List.mem_append_right _ List.mem_cons_self)
      rw [List.cons_append, introduced, List.forall_mem_cons]
      split
      · rename_i isTaken
        rw [ih once]
        constructor
        · rintro ⟨free, apart⟩
          exact ⟨free, fun same => free (same ▸ isTaken), apart⟩
        · rintro ⟨free, _, apart⟩
          exact ⟨free, apart⟩
      · rw [List.mem_cons, or_iff_right other, ih once, List.mem_append, List.mem_singleton, not_or]
        constructor
        · rintro ⟨⟨free, apart⟩, later⟩
          exact ⟨free, Ne.symm apart, later⟩
        · rintro ⟨free, apart, later⟩
          exact ⟨⟨free, Ne.symm apart⟩, later⟩

/-- What is introduced by declarations with the same names corresponds. -/
theorem forall₂_introduced {α : Type} {name : α → String} {related : α → α → Prop}
    (named : ∀ one two, related one two → name two = name one) (taken : List String) {decls others : List α}
    (all : List.Forall₂ related decls others) :
    List.Forall₂ related (introduced name taken decls) (introduced name taken others) := by
  induction all generalizing taken with
  | nil => exact .nil
  | cons first _ ih =>
      rw [introduced, introduced, named _ _ first]
      split
      · exact ih taken
      · exact .cons first (ih _)

theorem ClassDecl.forall₂_attributes {related : AttributeDecl → AttributeDecl → Prop} {decl other : ClassDecl}
    (named : ∀ one two, related one two → two.name = one.name) (all : List.Forall₂
      (fun one two => Option.Rel related one.attribute? two.attribute?) decl.features other.features) :
    List.Forall₂ related decl.attributes other.attributes :=
  forall₂_introduced (fun one two same => congrArg Ident.name (named one two same)) []
    (List.rel_filterMap (fun _ _ same => same) all)

theorem ClassDecl.forall₂_methods {related : MethodDecl → MethodDecl → Prop} {decl other : ClassDecl}
    (named : ∀ one two, related one two → two.name = one.name) (all : List.Forall₂
      (fun one two => Option.Rel related one.method? two.method?) decl.features other.features) :
    List.Forall₂ related decl.methods other.methods :=
  forall₂_introduced (fun one two same => congrArg Ident.name (named one two same)) []
    (List.rel_filterMap (fun _ _ same => same) all)

end CoolLang

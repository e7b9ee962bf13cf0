import CoolLang.Proofs.Analysis.Frame

/-!
Overriding after inference. A method is compared with the one that it overrides before any type is inferred, and
what is open matches everything. So where nothing is reported, signatures agree wherever both of them are
declared (`Analysis.overriding_inferred`). Each class infers its own types for the rest, and these may differ
(`Analysis.overriding_differs`).
-/

namespace CoolLang

/-- Whether one signature repeats another as far as both are declared. -/
structure Method.Repeats (own inherited : Method) : Prop where
  params : List.Forall₂ (fun own inherited : Variable =>
    own.auto = false → inherited.auto = false → own.type = inherited.type) own.params inherited.params
  result : own.result.auto = false → inherited.result.auto = false → own.result.type = inherited.result.type

/-! ### Signatures before and after -/

namespace Variable

variable {own inherited own' inherited' : Variable}

theorem Frames.isDeclared (frames : own.Frames own') (isDeclared : own = .declared own.name own.type)
    (isWritten : own'.auto = false) : own' = own ∧ own.type ≠ .autoType := by
  rw [frames.auto, isDeclared] at isWritten
  have other : own.type ≠ .autoType := ne_of_beq_false isWritten
  exact ⟨frames.eq_of_ne_autoType other, other⟩

/-- Types that are compared as declared are the same where both stay so. -/
theorem type_eq_of_sameType (frames : own.Frames own') (frames' : inherited.Frames inherited')
    (isDeclared : own = .declared own.name own.type ∧ own.type ≠ .error)
    (isDeclared' : inherited = .declared inherited.name inherited.type ∧ inherited.type ≠ .error)
    (same : Hierarchy.sameType own.type inherited.type = true)
    (isWritten : own'.auto = false) (isWritten' : inherited'.auto = false) : own'.type = inherited'.type := by
  obtain ⟨rfl, other⟩ := frames.isDeclared isDeclared.1 isWritten
  obtain ⟨rfl, other'⟩ := frames'.isDeclared isDeclared'.1 isWritten'
  have checked {type : TypeId} (noError : type ≠ .error) (isKnown : type ≠ .autoType) :
      type.isChecked = true := by
    simp only [TypeId.isChecked, Bool.and_eq_true, bne_iff_ne]
    exact ⟨noError, isKnown⟩
  exact Hierarchy.sameType_eq (checked isDeclared.2 other) (checked isDeclared'.2 other') same

theorem types_eq_of_sameTypes {own inherited own' inherited' : List Variable}
    (same : List.Forall₂ (fun own inherited : Variable => Hierarchy.sameType own.type inherited.type = true) own inherited)
    (frames : List.Forall₂ Frames own own') (frames' : List.Forall₂ Frames inherited inherited')
    (declared : ∀ info ∈ own, info = .declared info.name info.type ∧ info.type ≠ .error)
    (declared' : ∀ info ∈ inherited, info = .declared info.name info.type ∧ info.type ≠ .error) :
    List.Forall₂ (fun own inherited : Variable =>
      own.auto = false → inherited.auto = false → own.type = inherited.type) own' inherited' := by
  induction same generalizing own' inherited' with
  | nil =>
      cases frames
      cases frames'
      exact .nil
  | cons same _ ih =>
      cases frames with
      | cons first frames =>
          cases frames' with
          | cons first' frames' =>
              obtain ⟨head, declared⟩ := List.forall_mem_cons.mp declared
              obtain ⟨head', declared'⟩ := List.forall_mem_cons.mp declared'
              exact .cons (type_eq_of_sameType first first' head head' same) (ih frames frames' declared declared')

end Variable

theorem Hierarchy.Frames.exists_of_inherited {before after : Hierarchy} {type owner : TypeId} {name : String}
    {method : Method} (frames : before.Frames after) (found : after.method? type name = some (owner, method)) :
    ∃ old, before.method? type name = some (owner, old) ∧ old.Frames method := by
  rw [method?, frames.alike.ancestors] at found
  rw [method?]
  generalize before.ancestors type = above at found ⊢
  induction above with
  | nil => cases found
  | cons ancestor above ih =>
      rw [List.findSome?_cons] at found ⊢
      cases isOwn : (after.info ancestor).method? name with
      | some own =>
          rw [isOwn] at found
          cases found
          obtain ⟨old, isOld, related⟩ := frames.exists_of_method? isOwn
          exact ⟨old, by rw [isOld]; rfl, related⟩
      | none =>
          rw [isOwn] at found
          have isOld : (before.info ancestor).method? name = none := by
            by_contra other
            obtain ⟨old, isOld⟩ := Option.ne_none_iff_exists'.mp other
            obtain ⟨method, isMethod, _⟩ := exists_of_find? (p := (·.name == name)) (frames.methods ancestor).flip
              (fun _ _ related => by rw [Method.Frames.name related]) isOld
            exact Option.some_ne_none _ (isMethod.symm.trans isOwn)
          rw [isOld]
          exact ih found

namespace Analysis

variable {source : String} {limit : Nat} {compiled : Compiled}

/-- Where nothing is reported, each of the passes has nothing to report. -/
theorem passes_clean (isCompiled : compile ⟨true, limit⟩ source = .ok compiled) (clean : compiled.found = []) :
    ∃ program, Program.parse (Scan.ofSource source).tokens = .ok program ∧
      compiled.analysis = ((checked program).infer limit).1.verify.1.1 ∧
      declarationFaults program = [] ∧ ((checked program).infer limit).1.verify.1.2 = [] := by
  cases parsed : Program.parse (Scan.ofSource source).tokens with
  | error fault =>
      rw [compile, parsed] at isCompiled
      cases fault <;> cases isCompiled
  | ok program =>
      obtain ⟨walks, completed⟩ := complete_inferring limit (Scan.ofSource source).errors program
      rw [compile_of_parsed parsed, completed] at isCompiled
      cases isCompiled
      obtain ⟨before, verified⟩ := List.append_eq_nil_iff.mp clean
      exact ⟨program, rfl, rfl, (List.append_eq_nil_iff.mp before).2, verified⟩

/-- Where nothing is reported, a method repeats the signature of the one that it overrides, as far as both are
declared. -/
theorem overriding_inferred (isCompiled : compile ⟨true, limit⟩ source = .ok compiled)
    (clean : compiled.found = []) {type parent owner : TypeId} {name : String} {own inherited : Method}
    (isParent : compiled.analysis.hierarchy.parent? type = some parent)
    (isOwn : (compiled.analysis.hierarchy.info type).method? name = some own)
    (isInherited : compiled.analysis.hierarchy.method? parent name = some (owner, inherited)) :
    own.Repeats inherited := by
  obtain ⟨program, parsed, isAnalysis, declared, -⟩ := passes_clean isCompiled clean
  have places : ∀ decl ∈ program.classes, (decl.features.map Feature.position).Nodup :=
    fun decl member => (Program.parse_shaped parsed member).2
  have frames : (checked program).hierarchy.Frames compiled.analysis.hierarchy :=
    isAnalysis ▸ (infer_preserves places limit).1.hierarchy
  obtain ⟨collected, _⟩ := Hierarchy.collect_collected program
  have numbered := Hierarchy.collect_numbered program
  have builds : ((Hierarchy.initial.collect program).1.build program (Hierarchy.initial.collect program).2.1).2 = [] :=
    (List.append_eq_nil_iff.mp declared).2
  obtain ⟨own', isOwn', ofOwn⟩ := frames.exists_of_method? isOwn
  obtain ⟨inherited', isInherited', ofInherited⟩ := frames.exists_of_inherited isInherited
  rw [frames.alike.parent?] at isParent
  have written {owner : TypeId} {method : Method} (member : method ∈ ((checked program).hierarchy.info owner).methods) :
      ∀ info ∈ method.result :: method.params, info = .declared info.name info.type ∧ info.type ≠ .error := by
    have valid := (collected.build_valid (fun _ : True => builds) owner).methods method member
    refine fun info isInfo => ⟨collected.build_declared numbered owner method member info isInfo, ?_⟩
    rcases List.mem_cons.mp isInfo with rfl | isParam
    · exact valid.result.noError trivial
    · exact (valid.params info isParam).1.noError trivial
  obtain ⟨result, params⟩ := List.forall_mem_cons.mp (written (List.mem_of_find?_eq_some isOwn'))
  obtain ⟨result', params'⟩ := List.forall_mem_cons.mp (written (Hierarchy.method?_mem isInherited').2.2)
  obtain ⟨sameParams, sameResult⟩ := Hierarchy.sameSignature_iff.mp (Hierarchy.sameSignature_of_accepted isParent
    (collected.build_accepted numbered builds (collected.build_isClass numbered isParent)) isOwn' isInherited')
  exact ⟨Variable.types_eq_of_sameTypes sameParams ofOwn.params ofInherited.params params params',
    Variable.type_eq_of_sameType ofOwn.result ofInherited.result result result' sameResult⟩

/-- The method `f` of the class `Main`, with the types inferred. -/
def upperMethod : Method :=
  ⟨"f", [⟨"x", .int, false, false⟩, ⟨"y", .int, false, false⟩, ⟨"z", .int, true, true⟩],
    ⟨"f", .int, true, true⟩, ⟨1, 60⟩⟩

/-- The method that overrides it in the class `Sub`, with the types inferred. -/
def lowerMethod : Method :=
  ⟨"f", [⟨"x", .int, false, false⟩, ⟨"y", .object, true, true⟩, ⟨"z", .object, true, true⟩],
    ⟨"f", .bool, false, false⟩, ⟨1, 143⟩⟩

theorem methods_inferring :
    let built := ((checked Program.inferring).infer 32).1.verify.1.1.hierarchy
    built.parent? ⟨9⟩ = some ⟨8⟩ ∧ (built.info ⟨9⟩).method? "f" = some lowerMethod ∧
      built.method? ⟨8⟩ "f" = some (⟨8⟩, upperMethod) := by
  decide +kernel

theorem overriding_inferred_f : ∃ compiled, compile ⟨true, 32⟩ Program.inferringSource = .ok compiled ∧
    compiled.found = [] ∧ (compiled.analysis.hierarchy.info ⟨9⟩).method? "f" = some lowerMethod ∧
    lowerMethod.Repeats upperMethod := by
  obtain ⟨walks, isCompiled⟩ := Program.compile_inferring
  have methods := methods_inferring
  generalize ((checked Program.inferring).infer 32).1.verify.1.1 = analysis at isCompiled methods
  obtain ⟨isParent, isLower, isUpper⟩ := methods
  exact ⟨_, isCompiled, rfl, isLower, overriding_inferred isCompiled rfl isParent isLower isUpper⟩

/-- A method need not have the types of the one that it overrides, neither where one of the two leaves a type to
inference nor where both do. -/
theorem overriding_differs : ∃ compiled, compile ⟨true, 32⟩ Program.inferringSource = .ok compiled ∧
    compiled.found = [] ∧ compiled.analysis.hierarchy.parent? ⟨9⟩ = some ⟨8⟩ ∧
    (compiled.analysis.hierarchy.info ⟨9⟩).method? "f" = some lowerMethod ∧
    compiled.analysis.hierarchy.method? ⟨8⟩ "f" = some (⟨8⟩, upperMethod) ∧
    lowerMethod.params.map Variable.type ≠ upperMethod.params.map Variable.type ∧
    lowerMethod.result.type ≠ upperMethod.result.type := by
  obtain ⟨walks, isCompiled⟩ := Program.compile_inferring
  have methods := methods_inferring
  generalize ((checked Program.inferring).infer 32).1.verify.1.1 = analysis at isCompiled methods
  obtain ⟨isParent, isLower, isUpper⟩ := methods
  exact ⟨_, isCompiled, rfl, isParent, isLower, isUpper, by decide, by decide⟩

end Analysis

end CoolLang

import ModuleStubs.Extraction.Draft
import ModuleStubs.Proofs.Structure.Entries

/-! Which parameters of a closure are read, in terms of what the tool reports: those of the
right kind, in order, except for a parameter whose type has the name that marks a module
definition. This name hides the kind of a node. -/

namespace ModuleStubs.Node

def closureKind : Wording := "source.lang.swift.expr.closure"

def parameterKind : Wording := "source.lang.swift.decl.var.parameter"

def hasKind (kind : Wording) (fields : List (Wording × Json)) : Bool :=
  textField "key.kind" fields = some kind

def isMarked (fields : List (Wording × Json)) : Bool :=
  textField "key.typename" fields = some moduleTypename

def reportedParameters (fields : List (Wording × Json)) : List (List (Wording × Json)) :=
  (entries fields).filter (hasKind parameterKind)

def reportedParameter (fields : List (Wording × Json)) : Parameter :=
  ⟨textField "key.name" fields, Descriptor.ofName (textField "key.typename" fields)⟩

def closureSignature? (n : Node) : Option Signature := n.closure?.map closureSignature

theorem isClosure_ofFields (fields : List (Wording × Json)) :
    (ofFields fields).isClosure = (hasKind closureKind fields && !isMarked fields) := by
  change decide (shapeOf (textField "key.kind" fields) (textField "key.typename" fields) =
    .closure) = _
  rw [shapeOf, hasKind, isMarked, closureKind]
  grind [Wording.ofString_inj]

theorem isParameter_ofFields (fields : List (Wording × Json)) :
    (ofFields fields).isParameter = (hasKind parameterKind fields && !isMarked fields) := by
  change decide (shapeOf (textField "key.kind" fields) (textField "key.typename" fields) =
    .parameter) = _
  rw [shapeOf, hasKind, isMarked, parameterKind]
  grind [Wording.ofString_inj]

/-- A closure spells out its reported parameters that are not marked. -/
theorem closureSignature_ofFields (fields : List (Wording × Json)) :
    (ofFields fields).closureSignature =
      { parameters := ((reportedParameters fields).filter fun e => !isMarked e).map
          reportedParameter
        result := .unknown } := by
  have kept : (substructure fields).filter isParameter =
      ((reportedParameters fields).filter fun e => !isMarked e).map ofFields := by
    rw [substructure_eq_map, List.filter_map, reportedParameters, List.filter_filter]
    refine congrArg _ (List.filter_congr fun e _ => ?_)
    rw [Function.comp_apply, isParameter_ofFields, Bool.and_comm]
  rw [closureSignature]
  change Signature.mk (((substructure fields).filter isParameter).map parameter) _ _ = _
  rw [kept, List.map_map]
  rfl

/-- The report that the signature of a closure is read from: its own, unless it is marked
itself; then that of the first closure below it that is not marked. -/
def spelledBy? (fields : List (Wording × Json)) : Option (List (Wording × Json)) :=
  if isMarked fields then (entries fields).find? fun e => hasKind closureKind e && !isMarked e
  else some fields

theorem closure?_ofFields {fields : List (Wording × Json)} (closure : hasKind closureKind fields) :
    (ofFields fields).closure? = (spelledBy? fields).map ofFields := by
  rw [closure?, isClosure_ofFields, closure, Bool.true_and, spelledBy?]
  cases isMarked fields with
  | false => rfl
  | true =>
    have each : isClosure ∘ ofFields = fun e => hasKind closureKind e && !isMarked e :=
      funext isClosure_ofFields
    change (substructure fields).find? isClosure = _
    rw [substructure_eq_map, List.find?_map, each]
    rfl

/-- The signature of a closure has one parameter for each reported parameter, in order, with its
name and the type of its type name, except for those that are marked as module definitions. All
are kept exactly if none is marked. A closure that is marked itself is passed over, and the
first unmarked closure below it is read in the same way, if there is one. -/
theorem closure_parameters_unless_marked {fields : List (Wording × Json)}
    (closure : hasKind closureKind fields) :
    ∃ n, ofJson? (.obj fields) = some n ∧
      n.closureSignature? = (spelledBy? fields).map (fun source =>
        { parameters := ((reportedParameters source).filter fun e => !isMarked e).map
            reportedParameter
          result := .unknown }) ∧
      (isMarked fields = false →
        (n.closureSignature? = some
            { parameters := (reportedParameters fields).map reportedParameter
              result := .unknown } ↔
          ∀ e ∈ reportedParameters fields, isMarked e = false)) := by
  have signature : (ofFields fields).closureSignature? = (spelledBy? fields).map fun source =>
      { parameters := ((reportedParameters source).filter fun e => !isMarked e).map
          reportedParameter
        result := .unknown } := by
    rw [closureSignature?, closure?_ofFields closure, Option.map_map]
    exact congrArg (Option.map · _) (funext closureSignature_ofFields)
  refine ⟨ofFields fields, ofJson?_obj fields, signature, fun unmarked => ?_⟩
  rw [signature, spelledBy?, unmarked, if_neg Bool.false_ne_true, Option.map_some]
  constructor
  · intro all
    have lengths := congrArg List.length (congrArg Signature.parameters (Option.some.inj all))
    rw [List.length_map, List.length_map] at lengths
    have whole := List.length_filter_eq_length_iff.mp lengths
    exact fun e mem => by simpa using whole e mem
  · intro plain
    rw [List.filter_eq_self.mpr fun e mem => by rw [plain e mem]; rfl]

def parameterReport (name typename : String) : Json :=
  .obj [("key.kind", .str parameterKind), ("key.name", .str name), ("key.typename", .str typename)]

def closureReport (items : List Json) : List (Wording × Json) :=
  [("key.kind", .str closureKind), ("key.substructure", .arr items)]

theorem closure_keeps_parameter :
    hasKind closureKind (closureReport [.null, parameterReport "n" "Int"]) ∧
    ∃ n, ofJson? (.obj (closureReport [.null, parameterReport "n" "Int"])) = some n ∧
      n.closureSignature? = some
        { parameters := [⟨some (Wording.ofString "n"), .primitive "Int"⟩],
          result := .unknown } := by
  have closure : hasKind closureKind (closureReport [.null, parameterReport "n" "Int"]) := by
    decide
  obtain ⟨n, given, -, all⟩ := closure_parameters_unless_marked closure
  have type : Descriptor.ofName (some (Wording.ofString "Int")) = .primitive "Int" := by
    rw [Descriptor.ofName, Descriptor.ofWording_of_plain rfl]
    rfl
  have read := (all rfl).mpr (by decide)
  refine ⟨closure, n, given, read.trans ?_⟩
  rw [← type]
  rfl

/-- A parameter whose type is named like a module definition is lost. -/
theorem closure_loses_marked_parameter :
    hasKind closureKind (closureReport [parameterReport "d" "ModuleDefinition"]) ∧
    (reportedParameters (closureReport [parameterReport "d" "ModuleDefinition"])).map
      reportedParameter = [⟨some (Wording.ofString "d"), .reference "ModuleDefinition"⟩] ∧
    ∃ n, ofJson? (.obj (closureReport [parameterReport "d" "ModuleDefinition"])) = some n ∧
      n.closureSignature? = some { parameters := [], result := .unknown } := by
  have type : Descriptor.ofName (some (Wording.ofString "ModuleDefinition")) =
      .reference "ModuleDefinition" := by
    rw [Descriptor.ofName, Descriptor.ofWording_of_plain rfl]
    rfl
  refine ⟨by decide, ?_, _, ofJson?_obj _, ?_⟩
  · rw [← type]
    rfl
  · rw [closureSignature?, closure?_ofFields (by decide)]
    exact congrArg some (closureSignature_ofFields _)

end ModuleStubs.Node

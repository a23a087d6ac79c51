import BoundTree.Shape.Field
import BoundTree.Text.Snake

/-!
The shapes of operations: for each the kinds it serves, its child slots in declaration order and its
plain attributes. Every kind is served by exactly one shape.
-/
namespace BoundTree

inductive Shape
  | unmodelled | invalid | block | variableDeclarationGroup | switch | switchCase | whileLoop
  | forLoop | forToLoop | forEachLoop | labeled | branch | empty | returnStatement | lock
  | tryStatement | catchClause | usingStatement | usingDeclaration | fixed | withStatement
  | expressionStatement | localFunction | stop | endProgram | raiseEvent | reDim | reDimClause
  | variableDeclaration | variableDeclarator | variableInitializer | fieldInitializer
  | propertyInitializer | parameterInitializer | literal | utf8String | localReference
  | parameterReference | fieldReference | methodReference | propertyReference | eventReference
  | arrayElementReference | instanceReference | implicitIndexerReference | inlineArrayAccess
  | pointerIndirectionReference | dynamicMemberReference | dynamicIndexerAccess | dynamicInvocation
  | unary | binary | tupleBinary | incrementOrDecrement | conversion | conditional | coalesce
  | coalesceAssignment | simpleAssignment | compoundAssignment | deconstructionAssignment
  | eventAssignment | parenthesized | conditionalAccess | conditionalAccessInstance | typeTest
  | patternTest | range | throw | await | addressOf | sizeOf | typeOf | nameOf | defaultValue
  | declarationExpression | discard | tuple | withExpression | objectCreation
  | typeParameterObjectCreation | noPiaObjectCreation | dynamicObjectCreation | arrayCreation
  | arrayInitializer | anonymousObjectCreation | objectOrCollectionInitializer | memberInitializer
  | delegateCreation | anonymousFunction | collectionExpression | spread | invocation
  | functionPointerInvocation | argument | omittedArgument | attributeApplication | constantPattern
  | declarationPattern | typePattern | relationalPattern | negatedPattern | binaryPattern
  | discardPattern | recursivePattern | propertySubpattern | listPattern | slicePattern
  | switchExpression | switchExpressionArm | singleValueCaseClause | relationalCaseClause
  | rangeCaseClause | patternCaseClause | defaultCaseClause | interpolatedString
  | interpolatedStringText | interpolation | interpolatedStringHandlerCreation
  | interpolatedStringAddition | interpolatedStringAppend
  | interpolatedStringHandlerArgumentPlaceholder | translatedQuery | aggregateQuery | methodBody
  | constructorBody | placeholder | flowCapture | flowCaptureReference | nullTest | caughtException
  | flowAnonymousFunction | staticLocalInitializationSemaphore
  deriving DecidableEq, Repr

/-- What a shape is made of. -/
structure Descriptor where
  /-- The name of the shape among the shapes. -/
  name : String
  /-- The kinds an operation of the shape may have; more than one when the shape is shared. -/
  kinds : List Kind
  slots : List SlotField
  attributes : List (String × AttributeType)
  deriving DecidableEq, Repr

namespace Shape

open SlotField (one optional many detached)

def descriptor : Shape → Descriptor
  | .unmodelled => ⟨"None", [.unmodelled], [many "children"], []⟩
  | .invalid => ⟨"Invalid", [.invalid], [many "children"], []⟩
  | .block => ⟨"Block", [.block], [many "operations"], [("locals", .handles .localVar)]⟩
  | .variableDeclarationGroup => ⟨"VariableDeclarationGroup", [.variableDeclarationGroup],
    [many "declarations"],
    []⟩
  | .switch => ⟨"Switch", [.switch],
    [one "value", many "cases"],
    [("locals", .handles .localVar), ("exit_label", .handle .label)]⟩
  | .switchCase => ⟨"SwitchCase", [.switchCase],
    [many "clauses", many "body", detached .optional "condition"],
    [("locals", .handles .localVar)]⟩
  | .whileLoop => ⟨"WhileLoop", [.whileLoop],
    [optional "condition", one "body", optional "ignored_condition"],
    [("condition_is_top", .flag), ("condition_is_until", .flag), ("locals", .handles .localVar),
      ("continue_label", .handle .label), ("exit_label", .handle .label)]⟩
  | .forLoop => ⟨"ForLoop", [.forLoop],
    [many "before", optional "condition", one "body", many "at_loop_bottom"],
    [("locals", .handles .localVar), ("condition_locals", .handles .localVar),
      ("continue_label", .handle .label), ("exit_label", .handle .label)]⟩
  | .forToLoop => ⟨"ForToLoop", [.forToLoop],
    [one "loop_control_variable", one "initial_value", one "limit_value", one "step_value",
      one "body", many "next_variables"],
    [("is_checked", .flag), ("locals", .handles .localVar), ("continue_label", .handle .label),
      ("exit_label", .handle .label)]⟩
  | .forEachLoop => ⟨"ForEachLoop", [.forEachLoop],
    [one "collection", one "loop_control_variable", one "body", many "next_variables"],
    [("is_asynchronous", .flag), ("info", .forEachInfo), ("locals", .handles .localVar),
      ("continue_label", .handle .label), ("exit_label", .handle .label)]⟩
  | .labeled => ⟨"Labeled", [.labeled], [optional "operation"], [("label", .handle .label)]⟩
  | .branch => ⟨"Branch", [.branch], [], [("target", .handle .label), ("branch_kind", .branchKind)]⟩
  | .empty => ⟨"Empty", [.empty], [], []⟩
  | .returnStatement => ⟨"Return", [.returnStatement, .yieldReturn, .yieldBreak],
    [optional "returned_value"],
    []⟩
  | .lock => ⟨"Lock", [.lock],
    [one "locked_value", one "body"],
    [("lock_taken_symbol", .optionalHandle .localVar)]⟩
  | .tryStatement => ⟨"Try", [.tryStatement],
    [one "body", many "catches", optional "finally"],
    [("exit_label", .optionalHandle .label)]⟩
  | .catchClause => ⟨"CatchClause", [.catchClause],
    [optional "exception_declaration_or_expression", optional "filter", one "handler"],
    [("exception_type", .handle .type), ("locals", .handles .localVar)]⟩
  | .usingStatement => ⟨"Using", [.usingStatement],
    [one "resources", one "body"],
    [("locals", .handles .localVar), ("is_asynchronous", .flag)]⟩
  | .usingDeclaration => ⟨"UsingDeclaration", [.usingDeclaration],
    [one "declaration_group"],
    [("is_asynchronous", .flag)]⟩
  | .fixed => ⟨"Fixed", [.fixed], [one "variables", one "body"], [("locals", .handles .localVar)]⟩
  | .withStatement => ⟨"WithStatement", [.withStatement], [one "value", one "body"], []⟩
  | .expressionStatement => ⟨"ExpressionStatement", [.expressionStatement], [one "operation"], []⟩
  | .localFunction => ⟨"LocalFunction", [.localFunction],
    [optional "body", optional "ignored_body"],
    [("symbol", .handle .method)]⟩
  | .stop => ⟨"Stop", [.stop], [], []⟩
  | .endProgram => ⟨"End", [.endProgram], [], []⟩
  | .raiseEvent => ⟨"RaiseEvent", [.raiseEvent], [one "event_reference", many "arguments"], []⟩
  | .reDim => ⟨"ReDim", [.reDim], [many "clauses"], [("preserve", .flag)]⟩
  | .reDimClause => ⟨"ReDimClause", [.reDimClause], [one "operand", many "dimension_sizes"], []⟩
  | .variableDeclaration => ⟨"VariableDeclaration", [.variableDeclaration],
    [many "ignored_dimensions", many "declarators", optional "initializer"],
    []⟩
  | .variableDeclarator => ⟨"VariableDeclarator", [.variableDeclarator],
    [many "ignored_arguments", optional "initializer"],
    [("symbol", .handle .localVar)]⟩
  | .variableInitializer => ⟨"VariableInitializer", [.variableInitializer],
    [one "value"],
    [("locals", .handles .localVar)]⟩
  | .fieldInitializer => ⟨"FieldInitializer", [.fieldInitializer],
    [one "value"],
    [("initialized_fields", .handles .field), ("locals", .handles .localVar)]⟩
  | .propertyInitializer => ⟨"PropertyInitializer", [.propertyInitializer],
    [one "value"],
    [("initialized_properties", .handles .property), ("locals", .handles .localVar)]⟩
  | .parameterInitializer => ⟨"ParameterInitializer", [.parameterInitializer],
    [one "value"],
    [("parameter", .handle .parameter), ("locals", .handles .localVar)]⟩
  | .literal => ⟨"Literal", [.literal], [], []⟩
  | .utf8String => ⟨"Utf8String", [.utf8String], [], [("value", .text)]⟩
  | .localReference => ⟨"LocalReference", [.localReference],
    [],
    [("local", .handle .localVar), ("is_declaration", .flag)]⟩
  | .parameterReference => ⟨"ParameterReference", [.parameterReference],
    [],
    [("parameter", .handle .parameter)]⟩
  | .fieldReference => ⟨"FieldReference", [.fieldReference],
    [optional "instance"],
    [("field", .handle .field), ("is_declaration", .flag)]⟩
  | .methodReference => ⟨"MethodReference", [.methodReference],
    [optional "instance"],
    [("method", .handle .method), ("is_virtual", .flag)]⟩
  | .propertyReference => ⟨"PropertyReference", [.propertyReference],
    [optional "instance", many "arguments"],
    [("property", .handle .property)]⟩
  | .eventReference => ⟨"EventReference", [.eventReference],
    [optional "instance"],
    [("event", .handle .event)]⟩
  | .arrayElementReference => ⟨"ArrayElementReference", [.arrayElementReference],
    [one "array_reference", many "indices"],
    []⟩
  | .instanceReference => ⟨"InstanceReference", [.instanceReference],
    [],
    [("reference_kind", .instanceReferenceKind)]⟩
  | .implicitIndexerReference => ⟨"ImplicitIndexerReference", [.implicitIndexerReference],
    [one "instance", one "argument"],
    [("length_symbol", .handle .symbol), ("indexer_symbol", .handle .symbol)]⟩
  | .inlineArrayAccess => ⟨"InlineArrayAccess", [.inlineArrayAccess],
    [one "instance", one "argument"],
    []⟩
  | .pointerIndirectionReference => ⟨"PointerIndirectionReference", [.pointerIndirectionReference],
    [one "pointer"],
    []⟩
  | .dynamicMemberReference => ⟨"DynamicMemberReference", [.dynamicMemberReference],
    [optional "instance"],
    [("member_name", .symbol), ("type_arguments", .handles .type),
      ("containing_type", .optionalHandle .type)]⟩
  | .dynamicIndexerAccess => ⟨"DynamicIndexerAccess", [.dynamicIndexerAccess],
    [one "operation", many "arguments"],
    [("argument_names", .optionalSymbols), ("argument_ref_kinds", .refKinds)]⟩
  | .dynamicInvocation => ⟨"DynamicInvocation", [.dynamicInvocation],
    [one "operation", many "arguments"],
    [("argument_names", .optionalSymbols), ("argument_ref_kinds", .refKinds)]⟩
  | .unary => ⟨"Unary", [.unary],
    [one "operand"],
    [("operator_kind", .unaryOperator), ("is_lifted", .flag), ("is_checked", .flag),
      ("operator_method", .optionalHandle .method), ("constrained_to_type", .optionalHandle .type)]⟩
  | .binary => ⟨"Binary", [.binary],
    [one "left_operand", one "right_operand"],
    [("operator_kind", .binaryOperator), ("is_lifted", .flag), ("is_checked", .flag),
      ("is_compare_text", .flag), ("operator_method", .optionalHandle .method),
      ("unary_operator_method", .optionalHandle .method)]⟩
  | .tupleBinary => ⟨"TupleBinary", [.tupleBinary],
    [one "left_operand", one "right_operand"],
    [("operator_kind", .binaryOperator)]⟩
  | .incrementOrDecrement => ⟨"IncrementOrDecrement", [.increment, .decrement],
    [one "target"],
    [("is_postfix", .flag), ("is_lifted", .flag), ("is_checked", .flag),
      ("operator_method", .optionalHandle .method)]⟩
  | .conversion => ⟨"Conversion", [.conversion],
    [one "operand"],
    [("conversion", .conversion), ("is_try_cast", .flag), ("is_checked", .flag)]⟩
  | .conditional => ⟨"Conditional", [.conditional],
    [one "condition", one "when_true", optional "when_false"],
    [("is_ref", .flag)]⟩
  | .coalesce => ⟨"Coalesce", [.coalesce],
    [one "value", one "when_null"],
    [("value_conversion", .conversion)]⟩
  | .coalesceAssignment => ⟨"CoalesceAssignment", [.coalesceAssignment],
    [one "target", one "value"],
    []⟩
  | .simpleAssignment => ⟨"SimpleAssignment", [.simpleAssignment],
    [one "target", one "value"],
    [("is_ref", .flag)]⟩
  | .compoundAssignment => ⟨"CompoundAssignment", [.compoundAssignment],
    [one "target", one "value"],
    [("operator_kind", .binaryOperator), ("is_lifted", .flag), ("is_checked", .flag),
      ("operator_method", .optionalHandle .method), ("in_conversion", .conversion),
      ("out_conversion", .conversion)]⟩
  | .deconstructionAssignment => ⟨"DeconstructionAssignment", [.deconstructionAssignment],
    [one "target", one "value"],
    []⟩
  | .eventAssignment => ⟨"EventAssignment", [.eventAssignment],
    [one "event_reference", one "handler_value"],
    [("adds", .flag)]⟩
  | .parenthesized => ⟨"Parenthesized", [.parenthesized], [one "operand"], []⟩
  | .conditionalAccess => ⟨"ConditionalAccess", [.conditionalAccess],
    [one "operation", one "when_not_null"],
    []⟩
  | .conditionalAccessInstance => ⟨"ConditionalAccessInstance", [.conditionalAccessInstance],
    [],
    []⟩
  | .typeTest => ⟨"IsType", [.typeTest],
    [one "value_operand"],
    [("type_operand", .handle .type), ("is_negated", .flag)]⟩
  | .patternTest => ⟨"IsPattern", [.patternTest], [one "value", one "pattern"], []⟩
  | .range => ⟨"Range", [.range],
    [optional "left_operand", optional "right_operand"],
    [("is_lifted", .flag), ("method", .optionalHandle .method)]⟩
  | .throw => ⟨"Throw", [.throw], [optional "exception"], []⟩
  | .await => ⟨"Await", [.await], [one "operation"], []⟩
  | .addressOf => ⟨"AddressOf", [.addressOf], [one "reference"], []⟩
  | .sizeOf => ⟨"SizeOf", [.sizeOf], [], [("type_operand", .handle .type)]⟩
  | .typeOf => ⟨"TypeOf", [.typeOf], [], [("type_operand", .handle .type)]⟩
  | .nameOf => ⟨"NameOf", [.nameOf], [one "argument"], []⟩
  | .defaultValue => ⟨"DefaultValue", [.defaultValue], [], []⟩
  | .declarationExpression => ⟨"DeclarationExpression", [.declarationExpression],
    [one "expression"],
    []⟩
  | .discard => ⟨"Discard", [.discard], [], [("discard_symbol", .handle .symbol)]⟩
  | .tuple => ⟨"Tuple", [.tuple], [many "elements"], [("natural_type", .optionalHandle .type)]⟩
  | .withExpression => ⟨"With", [.withExpression],
    [one "operand", one "initializer"],
    [("clone_method", .optionalHandle .method)]⟩
  | .objectCreation => ⟨"ObjectCreation", [.objectCreation],
    [many "arguments", optional "initializer"],
    [("constructor", .optionalHandle .method)]⟩
  | .typeParameterObjectCreation => ⟨"TypeParameterObjectCreation", [.typeParameterObjectCreation],
    [optional "initializer"],
    []⟩
  | .noPiaObjectCreation => ⟨"NoPiaObjectCreation", [.noPiaObjectCreation],
    [optional "initializer"],
    []⟩
  | .dynamicObjectCreation => ⟨"DynamicObjectCreation", [.dynamicObjectCreation],
    [many "arguments", optional "initializer"],
    [("argument_names", .optionalSymbols), ("argument_ref_kinds", .refKinds)]⟩
  | .arrayCreation => ⟨"ArrayCreation", [.arrayCreation],
    [many "dimension_sizes", optional "initializer"],
    []⟩
  | .arrayInitializer => ⟨"ArrayInitializer", [.arrayInitializer], [many "element_values"], []⟩
  | .anonymousObjectCreation => ⟨"AnonymousObjectCreation", [.anonymousObjectCreation],
    [many "initializers"],
    []⟩
  | .objectOrCollectionInitializer => ⟨"ObjectOrCollectionInitializer", [.objectOrCollectionInitializer],
    [many "initializers"],
    []⟩
  | .memberInitializer => ⟨"MemberInitializer", [.memberInitializer],
    [one "initialized_member", one "initializer"],
    []⟩
  | .delegateCreation => ⟨"DelegateCreation", [.delegateCreation], [one "target"], []⟩
  | .anonymousFunction => ⟨"AnonymousFunction", [.anonymousFunction],
    [one "body"],
    [("symbol", .handle .method)]⟩
  | .collectionExpression => ⟨"CollectionExpression", [.collectionExpression],
    [many "elements"],
    [("construct_method", .optionalHandle .method)]⟩
  | .spread => ⟨"Spread", [.spread],
    [one "operand"],
    [("element_type", .handle .type), ("element_conversion", .conversion)]⟩
  | .invocation => ⟨"Invocation", [.invocation],
    [optional "instance", many "arguments"],
    [("target_method", .handle .method), ("is_virtual", .flag),
      ("constrained_to_type", .optionalHandle .type)]⟩
  | .functionPointerInvocation => ⟨"FunctionPointerInvocation", [.functionPointerInvocation],
    [one "target", many "arguments"],
    []⟩
  | .argument => ⟨"Argument", [.argument],
    [one "value"],
    [("argument_kind", .argumentKind), ("parameter", .optionalHandle .parameter),
      ("in_conversion", .conversion), ("out_conversion", .conversion)]⟩
  | .omittedArgument => ⟨"OmittedArgument", [.omittedArgument], [], []⟩
  | .attributeApplication => ⟨"Attribute", [.attributeApplication], [one "operation"], []⟩
  | .constantPattern => ⟨"ConstantPattern", [.constantPattern],
    [one "value"],
    [("input_type", .handle .type), ("narrowed_type", .handle .type)]⟩
  | .declarationPattern => ⟨"DeclarationPattern", [.declarationPattern],
    [],
    [("matched_type", .optionalHandle .type), ("matches_null", .flag),
      ("declared_symbol", .optionalHandle .localVar), ("input_type", .handle .type),
      ("narrowed_type", .handle .type)]⟩
  | .typePattern => ⟨"TypePattern", [.typePattern],
    [],
    [("matched_type", .handle .type), ("input_type", .handle .type),
      ("narrowed_type", .handle .type)]⟩
  | .relationalPattern => ⟨"RelationalPattern", [.relationalPattern],
    [one "value"],
    [("operator_kind", .binaryOperator), ("input_type", .handle .type),
      ("narrowed_type", .handle .type)]⟩
  | .negatedPattern => ⟨"NegatedPattern", [.negatedPattern],
    [one "pattern"],
    [("input_type", .handle .type), ("narrowed_type", .handle .type)]⟩
  | .binaryPattern => ⟨"BinaryPattern", [.binaryPattern],
    [one "left_pattern", one "right_pattern"],
    [("operator_kind", .binaryOperator), ("input_type", .handle .type),
      ("narrowed_type", .handle .type)]⟩
  | .discardPattern => ⟨"DiscardPattern", [.discardPattern],
    [],
    [("input_type", .handle .type), ("narrowed_type", .handle .type)]⟩
  | .recursivePattern => ⟨"RecursivePattern", [.recursivePattern],
    [many "deconstruction_subpatterns", many "property_subpatterns"],
    [("matched_type", .handle .type), ("deconstruct_symbol", .optionalHandle .method),
      ("declared_symbol", .optionalHandle .localVar), ("input_type", .handle .type),
      ("narrowed_type", .handle .type)]⟩
  | .propertySubpattern => ⟨"PropertySubpattern", [.propertySubpattern],
    [one "member", one "pattern"],
    []⟩
  | .listPattern => ⟨"ListPattern", [.listPattern],
    [many "patterns"],
    [("length_symbol", .optionalHandle .symbol), ("indexer_symbol", .optionalHandle .symbol),
      ("declared_symbol", .optionalHandle .localVar), ("input_type", .handle .type),
      ("narrowed_type", .handle .type)]⟩
  | .slicePattern => ⟨"SlicePattern", [.slicePattern],
    [optional "pattern"],
    [("slice_symbol", .optionalHandle .symbol), ("input_type", .handle .type),
      ("narrowed_type", .handle .type)]⟩
  | .switchExpression => ⟨"SwitchExpression", [.switchExpression],
    [one "value", many "arms"],
    [("is_exhaustive", .flag)]⟩
  | .switchExpressionArm => ⟨"SwitchExpressionArm", [.switchExpressionArm],
    [one "pattern", optional "guard", one "value"],
    [("locals", .handles .localVar)]⟩
  | .singleValueCaseClause => ⟨"SingleValueCaseClause", [.singleValueCaseClause],
    [one "value"],
    [("label", .optionalHandle .label)]⟩
  | .relationalCaseClause => ⟨"RelationalCaseClause", [.relationalCaseClause],
    [one "value"],
    [("relation", .binaryOperator), ("label", .optionalHandle .label)]⟩
  | .rangeCaseClause => ⟨"RangeCaseClause", [.rangeCaseClause],
    [one "minimum_value", one "maximum_value"],
    [("label", .optionalHandle .label)]⟩
  | .patternCaseClause => ⟨"PatternCaseClause", [.patternCaseClause],
    [one "pattern", optional "guard"],
    [("label", .handle .label)]⟩
  | .defaultCaseClause => ⟨"DefaultCaseClause", [.defaultCaseClause],
    [],
    [("label", .optionalHandle .label)]⟩
  | .interpolatedString => ⟨"InterpolatedString", [.interpolatedString], [many "parts"], []⟩
  | .interpolatedStringText => ⟨"InterpolatedStringText", [.interpolatedStringText],
    [one "text"],
    []⟩
  | .interpolation => ⟨"Interpolation", [.interpolation],
    [one "expression", optional "alignment", optional "format_string"],
    []⟩
  | .interpolatedStringHandlerCreation => ⟨"InterpolatedStringHandlerCreation", [.interpolatedStringHandlerCreation],
    [one "handler_creation", one "content"],
    [("handler_creation_has_success_parameter", .flag),
      ("handler_append_calls_return_bool", .flag)]⟩
  | .interpolatedStringAddition => ⟨"InterpolatedStringAddition", [.interpolatedStringAddition],
    [one "left", one "right"],
    []⟩
  | .interpolatedStringAppend => ⟨"InterpolatedStringAppend", [.interpolatedStringAppendLiteral, .interpolatedStringAppendFormatted, .interpolatedStringAppendInvalid],
    [one "append_call"],
    []⟩
  | .interpolatedStringHandlerArgumentPlaceholder => ⟨"InterpolatedStringHandlerArgumentPlaceholder", [.interpolatedStringHandlerArgumentPlaceholder],
    [],
    [("placeholder_kind", .handlerPlaceholder)]⟩
  | .translatedQuery => ⟨"TranslatedQuery", [.translatedQuery], [one "operation"], []⟩
  | .aggregateQuery => ⟨"AggregateQuery", [.aggregateQuery], [one "group", one "aggregation"], []⟩
  | .methodBody => ⟨"MethodBody", [.methodBody],
    [optional "block_body", optional "expression_body"],
    []⟩
  | .constructorBody => ⟨"ConstructorBody", [.constructorBody],
    [optional "initializer", optional "block_body", optional "expression_body"],
    [("locals", .handles .localVar)]⟩
  | .placeholder => ⟨"Placeholder", [.placeholder], [], [("placeholder_kind", .placeholderKind)]⟩
  | .flowCapture => ⟨"FlowCapture", [.flowCapture], [one "value"], [("id", .handle .capture)]⟩
  | .flowCaptureReference => ⟨"FlowCaptureReference", [.flowCaptureReference],
    [],
    [("id", .handle .capture), ("is_initialization", .flag)]⟩
  | .nullTest => ⟨"IsNull", [.nullTest], [one "operand"], []⟩
  | .caughtException => ⟨"CaughtException", [.caughtException], [], []⟩
  | .flowAnonymousFunction => ⟨"FlowAnonymousFunction", [.flowAnonymousFunction],
    [],
    [("original", .function), ("context", .handle .context)]⟩
  | .staticLocalInitializationSemaphore => ⟨"StaticLocalInitializationSemaphore", [.staticLocalInitializationSemaphore],
    [],
    [("local", .handle .localVar)]⟩

/-- Every shape, in declaration order. -/
def all : List Shape :=
  [.unmodelled, .invalid, .block, .variableDeclarationGroup, .switch, .switchCase, .whileLoop,
    .forLoop, .forToLoop, .forEachLoop, .labeled, .branch, .empty, .returnStatement, .lock,
    .tryStatement, .catchClause, .usingStatement, .usingDeclaration, .fixed, .withStatement,
    .expressionStatement, .localFunction, .stop, .endProgram, .raiseEvent, .reDim, .reDimClause,
    .variableDeclaration, .variableDeclarator, .variableInitializer, .fieldInitializer,
    .propertyInitializer, .parameterInitializer, .literal, .utf8String, .localReference,
    .parameterReference, .fieldReference, .methodReference, .propertyReference, .eventReference,
    .arrayElementReference, .instanceReference, .implicitIndexerReference, .inlineArrayAccess,
    .pointerIndirectionReference, .dynamicMemberReference, .dynamicIndexerAccess,
    .dynamicInvocation, .unary, .binary, .tupleBinary, .incrementOrDecrement, .conversion,
    .conditional, .coalesce, .coalesceAssignment, .simpleAssignment, .compoundAssignment,
    .deconstructionAssignment, .eventAssignment, .parenthesized, .conditionalAccess,
    .conditionalAccessInstance, .typeTest, .patternTest, .range, .throw, .await, .addressOf,
    .sizeOf, .typeOf, .nameOf, .defaultValue, .declarationExpression, .discard, .tuple,
    .withExpression, .objectCreation, .typeParameterObjectCreation, .noPiaObjectCreation,
    .dynamicObjectCreation, .arrayCreation, .arrayInitializer, .anonymousObjectCreation,
    .objectOrCollectionInitializer, .memberInitializer, .delegateCreation, .anonymousFunction,
    .collectionExpression, .spread, .invocation, .functionPointerInvocation, .argument,
    .omittedArgument, .attributeApplication, .constantPattern, .declarationPattern, .typePattern,
    .relationalPattern, .negatedPattern, .binaryPattern, .discardPattern, .recursivePattern,
    .propertySubpattern, .listPattern, .slicePattern, .switchExpression, .switchExpressionArm,
    .singleValueCaseClause, .relationalCaseClause, .rangeCaseClause, .patternCaseClause,
    .defaultCaseClause, .interpolatedString, .interpolatedStringText, .interpolation,
    .interpolatedStringHandlerCreation, .interpolatedStringAddition, .interpolatedStringAppend,
    .interpolatedStringHandlerArgumentPlaceholder, .translatedQuery, .aggregateQuery, .methodBody,
    .constructorBody, .placeholder, .flowCapture, .flowCaptureReference, .nullTest,
    .caughtException, .flowAnonymousFunction, .staticLocalInitializationSemaphore]

theorem mem_all (s : Shape) : s ∈ all := by cases s <;> decide

def name (s : Shape) : String := s.descriptor.name

instance : Named Shape := ⟨all, name⟩

/-- The name of the type that describes operations of the shape. -/
def typeName (s : Shape) : String := s.name ++ "Operation"

/-- The visitor method that handles the shape. -/
def visitMethod (s : Shape) : String := "visit_" ++ Text.snakeCase s.name

def kinds (s : Shape) : List Kind := s.descriptor.kinds

/-- A shared shape serves several kinds, and its operations say which one they are. -/
def isShared (s : Shape) : Bool := 1 < s.kinds.length

def slots (s : Shape) : List SlotField := s.descriptor.slots

def attributes (s : Shape) : List (String × AttributeType) := s.descriptor.attributes

/-- The names of the slots that hold children, in declaration order. -/
def childSlotNames (s : Shape) : List String :=
  (s.slots.filter (·.linkage = .attached)).map (·.name)

/-- The shape that serves a kind. -/
def ofKind? (k : Kind) : Option Shape := all.find? fun s => k ∈ s.kinds

end Shape
end BoundTree

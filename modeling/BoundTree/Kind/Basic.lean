import BoundTree.Named

/-!
The closed taxonomy of operations: 138 kinds in eleven families, in a fixed order.
-/
namespace BoundTree

/-- What a group of kinds has in common. -/
inductive Family
  /-- Constructs without a dedicated kind, and erroneous code. -/
  | unrepresented
  /-- Statements, clauses and control flow. -/
  | statement
  /-- Variable declarations and member initializers. -/
  | declaration
  /-- Literals and references to locals, members and instances. -/
  | literalOrReference
  /-- Operators, assignments and other expressions that produce a value. -/
  | operator
  /-- Object, array, delegate and collection creation. -/
  | creation
  /-- Invocations and their arguments. -/
  | invocation
  /-- Patterns, switch expressions and case clauses. -/
  | pattern
  /-- Parts of interpolated strings and their lowering onto handlers. -/
  | interpolatedString
  /-- Queries turned into calls, and member bodies. -/
  | queryOrBody
  /-- Nodes that only the construction of flow graphs produces. -/
  | synthetic
  deriving DecidableEq, Repr

namespace Family

def name : Family → String
  | .unrepresented => "Unrepresented"
  | .statement => "Statement"
  | .declaration => "Declaration"
  | .literalOrReference => "LiteralOrReference"
  | .operator => "Operator"
  | .creation => "Creation"
  | .invocation => "Invocation"
  | .pattern => "Pattern"
  | .interpolatedString => "InterpolatedString"
  | .queryOrBody => "QueryOrBody"
  | .synthetic => "Synthetic"

def all : List Family :=
  [.unrepresented, .statement, .declaration, .literalOrReference, .operator, .creation,
    .invocation, .pattern, .interpolatedString, .queryOrBody, .synthetic]

instance : Named Family := ⟨all, name⟩

theorem mem_all (f : Family) : f ∈ all := by cases f <;> decide

end Family

/-- What an operation is. -/
inductive Kind
  /-- Construct the tree does not model with a dedicated kind. -/
  | unmodelled
  /-- Erroneous code. -/
  | invalid
  /-- Statement list with its own scope. -/
  | block
  /-- One or more variable declarations in a single statement. -/
  | variableDeclarationGroup
  /-- Switch statement. -/
  | switch
  /-- Section of a switch statement: clauses and body. -/
  | switchCase
  /-- While, do-while and do-until loops. -/
  | whileLoop
  /-- Counted loop with initializer, condition and increment. -/
  | forLoop
  /-- Range loop from an initial value to a limit. -/
  | forToLoop
  /-- Collection loop. -/
  | forEachLoop
  /-- Labeled statement. -/
  | labeled
  /-- Goto, break or continue. -/
  | branch
  /-- Empty statement. -/
  | empty
  /-- Return statement. -/
  | returnStatement
  /-- Yield return statement. -/
  | yieldReturn
  /-- Yield break statement. -/
  | yieldBreak
  /-- Lock statement. -/
  | lock
  /-- Try statement. -/
  | tryStatement
  /-- Catch clause of a try statement. -/
  | catchClause
  /-- Using statement with a body. -/
  | usingStatement
  /-- Using declaration scoped to the enclosing block. -/
  | usingDeclaration
  /-- Fixed statement pinning variables. -/
  | fixed
  /-- With block evaluating a value once for member access. -/
  | withStatement
  /-- Expression evaluated as a statement. -/
  | expressionStatement
  /-- Local function declaration. -/
  | localFunction
  /-- Stop statement breaking into the debugger. -/
  | stop
  /-- End statement terminating the program. -/
  | endProgram
  /-- Event raise statement. -/
  | raiseEvent
  /-- Array redimension statement. -/
  | reDim
  /-- One array of a redimension statement. -/
  | reDimClause
  /-- Declarators sharing one type and optional initializer. -/
  | variableDeclaration
  /-- One declared variable. -/
  | variableDeclarator
  /-- Initializer of a variable. -/
  | variableInitializer
  /-- Initializer of one or more fields. -/
  | fieldInitializer
  /-- Initializer of one or more properties. -/
  | propertyInitializer
  /-- Default value of an optional parameter. -/
  | parameterInitializer
  /-- Literal value. -/
  | literal
  /-- UTF-8 encoded string literal. -/
  | utf8String
  /-- Reference to a local. -/
  | localReference
  /-- Reference to a parameter. -/
  | parameterReference
  /-- Reference to a field. -/
  | fieldReference
  /-- Reference to a method without invoking it. -/
  | methodReference
  /-- Reference to a property or indexer. -/
  | propertyReference
  /-- Reference to an event. -/
  | eventReference
  /-- Element access of an array. -/
  | arrayElementReference
  /-- Implicit or explicit reference to an instance. -/
  | instanceReference
  /-- Index or range access through length and indexer members. -/
  | implicitIndexerReference
  /-- Element access of an inline array. -/
  | inlineArrayAccess
  /-- Dereference of a pointer. -/
  | pointerIndirectionReference
  /-- Member access bound at run time. -/
  | dynamicMemberReference
  /-- Indexer access bound at run time. -/
  | dynamicIndexerAccess
  /-- Invocation bound at run time. -/
  | dynamicInvocation
  /-- Unary operator. -/
  | unary
  /-- Binary operator. -/
  | binary
  /-- Element-wise tuple comparison. -/
  | tupleBinary
  /-- Increment operator. -/
  | increment
  /-- Decrement operator. -/
  | decrement
  /-- Conversion. -/
  | conversion
  /-- Conditional expression or if statement. -/
  | conditional
  /-- Null-coalescing expression. -/
  | coalesce
  /-- Null-coalescing assignment. -/
  | coalesceAssignment
  /-- Simple assignment. -/
  | simpleAssignment
  /-- Compound assignment. -/
  | compoundAssignment
  /-- Deconstructing assignment. -/
  | deconstructionAssignment
  /-- Event handler addition or removal. -/
  | eventAssignment
  /-- Parenthesized expression. -/
  | parenthesized
  /-- Null-conditional access. -/
  | conditionalAccess
  /-- Receiver placeholder inside a null-conditional access. -/
  | conditionalAccessInstance
  /-- Type test. -/
  | typeTest
  /-- Pattern test. -/
  | patternTest
  /-- Range expression. -/
  | range
  /-- Throw expression or statement. -/
  | throw
  /-- Await expression. -/
  | await
  /-- Address-of expression. -/
  | addressOf
  /-- Size-of expression. -/
  | sizeOf
  /-- Type-of expression. -/
  | typeOf
  /-- Name-of expression. -/
  | nameOf
  /-- Default value expression. -/
  | defaultValue
  /-- Declaration used as an expression. -/
  | declarationExpression
  /-- Discard designation. -/
  | discard
  /-- Tuple literal. -/
  | tuple
  /-- Non-destructive mutation expression. -/
  | withExpression
  /-- Object creation through a constructor. -/
  | objectCreation
  /-- Creation of a type parameter through its constraint. -/
  | typeParameterObjectCreation
  /-- Creation of an embedded interop type. -/
  | noPiaObjectCreation
  /-- Object creation bound at run time. -/
  | dynamicObjectCreation
  /-- Array creation. -/
  | arrayCreation
  /-- Array initializer. -/
  | arrayInitializer
  /-- Anonymous type creation. -/
  | anonymousObjectCreation
  /-- Object or collection initializer. -/
  | objectOrCollectionInitializer
  /-- Nested member initializer. -/
  | memberInitializer
  /-- Delegate creation. -/
  | delegateCreation
  /-- Lambda or anonymous method. -/
  | anonymousFunction
  /-- Collection expression. -/
  | collectionExpression
  /-- Spread element of a collection expression. -/
  | spread
  /-- Method invocation. -/
  | invocation
  /-- Invocation through a function pointer. -/
  | functionPointerInvocation
  /-- Argument passed to a parameter. -/
  | argument
  /-- Argument omitted at the call site. -/
  | omittedArgument
  /-- Attribute application. -/
  | attributeApplication
  /-- Constant pattern. -/
  | constantPattern
  /-- Declaration pattern. -/
  | declarationPattern
  /-- Type pattern. -/
  | typePattern
  /-- Relational pattern. -/
  | relationalPattern
  /-- Negated pattern. -/
  | negatedPattern
  /-- Conjunctive or disjunctive pattern. -/
  | binaryPattern
  /-- Discard pattern. -/
  | discardPattern
  /-- Positional and property pattern. -/
  | recursivePattern
  /-- Member pattern inside a property pattern. -/
  | propertySubpattern
  /-- List pattern. -/
  | listPattern
  /-- Slice pattern inside a list pattern. -/
  | slicePattern
  /-- Switch expression. -/
  | switchExpression
  /-- Arm of a switch expression. -/
  | switchExpressionArm
  /-- Case clause matching one value. -/
  | singleValueCaseClause
  /-- Case clause comparing with a relational operator. -/
  | relationalCaseClause
  /-- Case clause matching a value range. -/
  | rangeCaseClause
  /-- Case clause matching a pattern. -/
  | patternCaseClause
  /-- Default case clause. -/
  | defaultCaseClause
  /-- Interpolated string. -/
  | interpolatedString
  /-- Literal text part. -/
  | interpolatedStringText
  /-- Interpolation hole. -/
  | interpolation
  /-- Handler-based lowering of an interpolated string. -/
  | interpolatedStringHandlerCreation
  /-- Concatenation of interpolated strings for a handler. -/
  | interpolatedStringAddition
  /-- Handler call appending literal text. -/
  | interpolatedStringAppendLiteral
  /-- Handler call appending a formatted value. -/
  | interpolatedStringAppendFormatted
  /-- Handler call that failed to bind. -/
  | interpolatedStringAppendInvalid
  /-- Placeholder for a value passed to a handler constructor. -/
  | interpolatedStringHandlerArgumentPlaceholder
  /-- Query expression turned into method calls. -/
  | translatedQuery
  /-- Aggregate query clause. -/
  | aggregateQuery
  /-- Body of a method. -/
  | methodBody
  /-- Body of a constructor. -/
  | constructorBody
  /-- Placeholder for a value supplied by the enclosing construct. -/
  | placeholder
  /-- Capture of a value into a flow temporary. -/
  | flowCapture
  /-- Read of a flow temporary. -/
  | flowCaptureReference
  /-- Null test introduced by flow lowering. -/
  | nullTest
  /-- Exception caught by a handler region. -/
  | caughtException
  /-- Anonymous function bound to a flow-graph context. -/
  | flowAnonymousFunction
  /-- Guard for one-time static local initialization. -/
  | staticLocalInitializationSemaphore
  deriving DecidableEq, Repr

namespace Kind

/-- The name in the taxonomy. -/
def name : Kind → String
  | .unmodelled => "None"
  | .invalid => "Invalid"
  | .block => "Block"
  | .variableDeclarationGroup => "VariableDeclarationGroup"
  | .switch => "Switch"
  | .switchCase => "SwitchCase"
  | .whileLoop => "WhileLoop"
  | .forLoop => "ForLoop"
  | .forToLoop => "ForToLoop"
  | .forEachLoop => "ForEachLoop"
  | .labeled => "Labeled"
  | .branch => "Branch"
  | .empty => "Empty"
  | .returnStatement => "Return"
  | .yieldReturn => "YieldReturn"
  | .yieldBreak => "YieldBreak"
  | .lock => "Lock"
  | .tryStatement => "Try"
  | .catchClause => "CatchClause"
  | .usingStatement => "Using"
  | .usingDeclaration => "UsingDeclaration"
  | .fixed => "Fixed"
  | .withStatement => "WithStatement"
  | .expressionStatement => "ExpressionStatement"
  | .localFunction => "LocalFunction"
  | .stop => "Stop"
  | .endProgram => "End"
  | .raiseEvent => "RaiseEvent"
  | .reDim => "ReDim"
  | .reDimClause => "ReDimClause"
  | .variableDeclaration => "VariableDeclaration"
  | .variableDeclarator => "VariableDeclarator"
  | .variableInitializer => "VariableInitializer"
  | .fieldInitializer => "FieldInitializer"
  | .propertyInitializer => "PropertyInitializer"
  | .parameterInitializer => "ParameterInitializer"
  | .literal => "Literal"
  | .utf8String => "Utf8String"
  | .localReference => "LocalReference"
  | .parameterReference => "ParameterReference"
  | .fieldReference => "FieldReference"
  | .methodReference => "MethodReference"
  | .propertyReference => "PropertyReference"
  | .eventReference => "EventReference"
  | .arrayElementReference => "ArrayElementReference"
  | .instanceReference => "InstanceReference"
  | .implicitIndexerReference => "ImplicitIndexerReference"
  | .inlineArrayAccess => "InlineArrayAccess"
  | .pointerIndirectionReference => "PointerIndirectionReference"
  | .dynamicMemberReference => "DynamicMemberReference"
  | .dynamicIndexerAccess => "DynamicIndexerAccess"
  | .dynamicInvocation => "DynamicInvocation"
  | .unary => "Unary"
  | .binary => "Binary"
  | .tupleBinary => "TupleBinary"
  | .increment => "Increment"
  | .decrement => "Decrement"
  | .conversion => "Conversion"
  | .conditional => "Conditional"
  | .coalesce => "Coalesce"
  | .coalesceAssignment => "CoalesceAssignment"
  | .simpleAssignment => "SimpleAssignment"
  | .compoundAssignment => "CompoundAssignment"
  | .deconstructionAssignment => "DeconstructionAssignment"
  | .eventAssignment => "EventAssignment"
  | .parenthesized => "Parenthesized"
  | .conditionalAccess => "ConditionalAccess"
  | .conditionalAccessInstance => "ConditionalAccessInstance"
  | .typeTest => "IsType"
  | .patternTest => "IsPattern"
  | .range => "Range"
  | .throw => "Throw"
  | .await => "Await"
  | .addressOf => "AddressOf"
  | .sizeOf => "SizeOf"
  | .typeOf => "TypeOf"
  | .nameOf => "NameOf"
  | .defaultValue => "DefaultValue"
  | .declarationExpression => "DeclarationExpression"
  | .discard => "Discard"
  | .tuple => "Tuple"
  | .withExpression => "With"
  | .objectCreation => "ObjectCreation"
  | .typeParameterObjectCreation => "TypeParameterObjectCreation"
  | .noPiaObjectCreation => "NoPiaObjectCreation"
  | .dynamicObjectCreation => "DynamicObjectCreation"
  | .arrayCreation => "ArrayCreation"
  | .arrayInitializer => "ArrayInitializer"
  | .anonymousObjectCreation => "AnonymousObjectCreation"
  | .objectOrCollectionInitializer => "ObjectOrCollectionInitializer"
  | .memberInitializer => "MemberInitializer"
  | .delegateCreation => "DelegateCreation"
  | .anonymousFunction => "AnonymousFunction"
  | .collectionExpression => "CollectionExpression"
  | .spread => "Spread"
  | .invocation => "Invocation"
  | .functionPointerInvocation => "FunctionPointerInvocation"
  | .argument => "Argument"
  | .omittedArgument => "OmittedArgument"
  | .attributeApplication => "Attribute"
  | .constantPattern => "ConstantPattern"
  | .declarationPattern => "DeclarationPattern"
  | .typePattern => "TypePattern"
  | .relationalPattern => "RelationalPattern"
  | .negatedPattern => "NegatedPattern"
  | .binaryPattern => "BinaryPattern"
  | .discardPattern => "DiscardPattern"
  | .recursivePattern => "RecursivePattern"
  | .propertySubpattern => "PropertySubpattern"
  | .listPattern => "ListPattern"
  | .slicePattern => "SlicePattern"
  | .switchExpression => "SwitchExpression"
  | .switchExpressionArm => "SwitchExpressionArm"
  | .singleValueCaseClause => "SingleValueCaseClause"
  | .relationalCaseClause => "RelationalCaseClause"
  | .rangeCaseClause => "RangeCaseClause"
  | .patternCaseClause => "PatternCaseClause"
  | .defaultCaseClause => "DefaultCaseClause"
  | .interpolatedString => "InterpolatedString"
  | .interpolatedStringText => "InterpolatedStringText"
  | .interpolation => "Interpolation"
  | .interpolatedStringHandlerCreation => "InterpolatedStringHandlerCreation"
  | .interpolatedStringAddition => "InterpolatedStringAddition"
  | .interpolatedStringAppendLiteral => "InterpolatedStringAppendLiteral"
  | .interpolatedStringAppendFormatted => "InterpolatedStringAppendFormatted"
  | .interpolatedStringAppendInvalid => "InterpolatedStringAppendInvalid"
  | .interpolatedStringHandlerArgumentPlaceholder => "InterpolatedStringHandlerArgumentPlaceholder"
  | .translatedQuery => "TranslatedQuery"
  | .aggregateQuery => "AggregateQuery"
  | .methodBody => "MethodBody"
  | .constructorBody => "ConstructorBody"
  | .placeholder => "Placeholder"
  | .flowCapture => "FlowCapture"
  | .flowCaptureReference => "FlowCaptureReference"
  | .nullTest => "IsNull"
  | .caughtException => "CaughtException"
  | .flowAnonymousFunction => "FlowAnonymousFunction"
  | .staticLocalInitializationSemaphore => "StaticLocalInitializationSemaphore"

/-- Every kind, in the order of the taxonomy. -/
def all : List Kind :=
  [.unmodelled, .invalid, .block, .variableDeclarationGroup, .switch, .switchCase, .whileLoop,
    .forLoop, .forToLoop, .forEachLoop, .labeled, .branch, .empty, .returnStatement, .yieldReturn,
    .yieldBreak, .lock, .tryStatement, .catchClause, .usingStatement, .usingDeclaration, .fixed,
    .withStatement, .expressionStatement, .localFunction, .stop, .endProgram, .raiseEvent, .reDim,
    .reDimClause, .variableDeclaration, .variableDeclarator, .variableInitializer,
    .fieldInitializer, .propertyInitializer, .parameterInitializer, .literal, .utf8String,
    .localReference, .parameterReference, .fieldReference, .methodReference, .propertyReference,
    .eventReference, .arrayElementReference, .instanceReference, .implicitIndexerReference,
    .inlineArrayAccess, .pointerIndirectionReference, .dynamicMemberReference,
    .dynamicIndexerAccess, .dynamicInvocation, .unary, .binary, .tupleBinary, .increment,
    .decrement, .conversion, .conditional, .coalesce, .coalesceAssignment, .simpleAssignment,
    .compoundAssignment, .deconstructionAssignment, .eventAssignment, .parenthesized,
    .conditionalAccess, .conditionalAccessInstance, .typeTest, .patternTest, .range, .throw, .await,
    .addressOf, .sizeOf, .typeOf, .nameOf, .defaultValue, .declarationExpression, .discard, .tuple,
    .withExpression, .objectCreation, .typeParameterObjectCreation, .noPiaObjectCreation,
    .dynamicObjectCreation, .arrayCreation, .arrayInitializer, .anonymousObjectCreation,
    .objectOrCollectionInitializer, .memberInitializer, .delegateCreation, .anonymousFunction,
    .collectionExpression, .spread, .invocation, .functionPointerInvocation, .argument,
    .omittedArgument, .attributeApplication, .constantPattern, .declarationPattern, .typePattern,
    .relationalPattern, .negatedPattern, .binaryPattern, .discardPattern, .recursivePattern,
    .propertySubpattern, .listPattern, .slicePattern, .switchExpression, .switchExpressionArm,
    .singleValueCaseClause, .relationalCaseClause, .rangeCaseClause, .patternCaseClause,
    .defaultCaseClause, .interpolatedString, .interpolatedStringText, .interpolation,
    .interpolatedStringHandlerCreation, .interpolatedStringAddition,
    .interpolatedStringAppendLiteral, .interpolatedStringAppendFormatted,
    .interpolatedStringAppendInvalid, .interpolatedStringHandlerArgumentPlaceholder,
    .translatedQuery, .aggregateQuery, .methodBody, .constructorBody, .placeholder, .flowCapture,
    .flowCaptureReference, .nullTest, .caughtException, .flowAnonymousFunction,
    .staticLocalInitializationSemaphore]

theorem mem_all (k : Kind) : k ∈ all := by cases k <;> decide

instance : Named Kind := ⟨all, name⟩

def family : Kind → Family
  | .unmodelled | .invalid => .unrepresented
  | .block | .variableDeclarationGroup | .switch | .switchCase | .whileLoop | .forLoop | .forToLoop
    | .forEachLoop | .labeled | .branch | .empty | .returnStatement | .yieldReturn | .yieldBreak
    | .lock | .tryStatement | .catchClause | .usingStatement | .usingDeclaration | .fixed
    | .withStatement | .expressionStatement | .localFunction | .stop | .endProgram | .raiseEvent
    | .reDim | .reDimClause => .statement
  | .variableDeclaration | .variableDeclarator | .variableInitializer | .fieldInitializer
    | .propertyInitializer | .parameterInitializer => .declaration
  | .literal | .utf8String | .localReference | .parameterReference | .fieldReference
    | .methodReference | .propertyReference | .eventReference | .arrayElementReference
    | .instanceReference | .implicitIndexerReference | .inlineArrayAccess
    | .pointerIndirectionReference | .dynamicMemberReference | .dynamicIndexerAccess
    | .dynamicInvocation => .literalOrReference
  | .unary | .binary | .tupleBinary | .increment | .decrement | .conversion | .conditional
    | .coalesce | .coalesceAssignment | .simpleAssignment | .compoundAssignment
    | .deconstructionAssignment | .eventAssignment | .parenthesized | .conditionalAccess
    | .conditionalAccessInstance | .typeTest | .patternTest | .range | .throw | .await | .addressOf
    | .sizeOf | .typeOf | .nameOf | .defaultValue | .declarationExpression | .discard | .tuple
    | .withExpression => .operator
  | .objectCreation | .typeParameterObjectCreation | .noPiaObjectCreation | .dynamicObjectCreation
    | .arrayCreation | .arrayInitializer | .anonymousObjectCreation | .objectOrCollectionInitializer
    | .memberInitializer | .delegateCreation | .anonymousFunction | .collectionExpression
    | .spread => .creation
  | .invocation | .functionPointerInvocation | .argument | .omittedArgument
    | .attributeApplication => .invocation
  | .constantPattern | .declarationPattern | .typePattern | .relationalPattern | .negatedPattern
    | .binaryPattern | .discardPattern | .recursivePattern | .propertySubpattern | .listPattern
    | .slicePattern | .switchExpression | .switchExpressionArm | .singleValueCaseClause
    | .relationalCaseClause | .rangeCaseClause | .patternCaseClause | .defaultCaseClause => .pattern
  | .interpolatedString | .interpolatedStringText | .interpolation
    | .interpolatedStringHandlerCreation | .interpolatedStringAddition
    | .interpolatedStringAppendLiteral | .interpolatedStringAppendFormatted
    | .interpolatedStringAppendInvalid
    | .interpolatedStringHandlerArgumentPlaceholder => .interpolatedString
  | .translatedQuery | .aggregateQuery | .methodBody | .constructorBody
    | .placeholder => .queryOrBody
  | .flowCapture | .flowCaptureReference | .nullTest | .caughtException | .flowAnonymousFunction
    | .staticLocalInitializationSemaphore => .synthetic

/-- The kinds of a family, in the order of the taxonomy. -/
def ofFamily (f : Family) : List Kind := all.filter (·.family = f)

/-- The place of a kind in the order of the taxonomy. -/
def rank (k : Kind) : Nat := k.ctorIdx

/-- Statements produce no value; the bodies of methods and constructors count among them. -/
def isStatement (k : Kind) : Bool :=
  k.family = .statement || k = .methodBody || k = .constructorBody

def isSynthetic (k : Kind) : Bool := k.family = .synthetic

def isLoop (k : Kind) : Bool :=
  k ∈ [whileLoop, forLoop, forToLoop, forEachLoop]

def isCaseClause (k : Kind) : Bool :=
  k ∈ [singleValueCaseClause, relationalCaseClause, rangeCaseClause, patternCaseClause,
    defaultCaseClause]

/-- Clauses and switch expressions are no patterns, and neither is a member of a pattern. -/
def isPattern (k : Kind) : Bool :=
  k ∈ [constantPattern, declarationPattern, typePattern, relationalPattern, negatedPattern,
    binaryPattern, discardPattern, recursivePattern, listPattern, slicePattern]

/-- Kinds in the order of the taxonomy. -/
def sort (ks : List Kind) : List Kind := ks.mergeSort fun a b => a.rank ≤ b.rank

end Kind
end BoundTree

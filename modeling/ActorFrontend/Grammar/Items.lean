import ActorFrontend.Grammar.Statements
import ActorFrontend.Tree.Item

/-!
# Reading declarations

Declarations, the members of their bodies, and whole programs.  In the body of a trait, an
implementation, an `extern` block, an actor or a supervisor an error costs a member; in a program
it costs a declaration.
-/

namespace ActorFrontend.Parser

variable {σ : Type}

/-- The parts of a body in braces, added to what was there before. -/
def membersIn (part : σ → Parser σ) (a : σ) : Parser σ := do
  expect .leftBrace
  let a ← bodyParts .members part a
  expect .rightBrace
  pure a

/-- The members of a body in braces. -/
def members {α : Type} (member : Parser α) : Parser (List α) := do
  let found ← membersIn (fun found => do
    let next ← member
    pure (next :: found)) []
  pure found.reverse

/-- A comma or a semicolon after a member, if there is one. -/
def memberSeparator : Parser Unit := do
  if ← accept .comma then
    pure ()
  else
    let _ ← accept .semicolon
    pure ()

/-- The parts of a body in braces in which an error is not mended. -/
def separatedMembers {α : Type} (member : Parser α) : Parser (List α) := do
  expect .leftBrace
  let found ← collect do
    if ← atBodyEnd then
      pure (false, [])
    else
      let next ← member
      memberSeparator
      pure (true, [next])
  expect .rightBrace
  pure found

/-! ## Visibility, imports, constants -/

/-- The visibility that a word in parentheses after `pub` stands for. -/
def restrictedVisibility? : TokenKind → Option Visibility
  | .ident "package" => some .packageVis
  | .ident "super" => some .superVis
  | _ => none

/-- The visibility written after `pub`, if it is restricted. -/
def restriction? (s : State) : Option Visibility :=
  if s.kind.isSymbol .leftParen && (s.peek 2).isSymbol .rightParen then
    restrictedVisibility? (s.peek 1)
  else none

/-- `pub`, `pub(package)`, `pub(super)` or nothing. -/
def visibility : Parser Visibility := do
  if ← acceptKeyword .pubKw then
    match ← query restriction? with
    | some vis =>
        advance
        advance
        advance
        pure vis
    | none => pure .publicVis
  else
    pure .privateVis

/-- What follows the separator after the path of an import. -/
inductive ImportStep where
  | part (name : String)
  | spec (spec : ImportSpec)

def importStep : Parser ImportStep := do
  match ← kind with
  | .symbol .star =>
      advance
      pure (.spec .glob)
  | .symbol .leftBrace =>
      advance
      let first ← name
      let more ← commaTail .rightBrace name
      pure (.spec (.names (first :: more)))
  | _ => pure (.part (← name))

/-- `import a::b;`, `import a::b::{x, y};` or `import a::b::*;` -/
def importDecl : Parser ImportDecl := do
  expectKeyword .importKw
  let first ← name
  let (parts, spec) ← loop (fun (parts, spec) => do
      if ← accept .colonColon then
        match ← importStep with
        | .part name => pure (true, name :: parts, spec)
        | .spec spec => pure (false, parts, spec)
      else
        pure (false, parts, spec))
    ([first], ImportSpec.whole)
  semicolon
  pure ⟨parts.reverse, spec⟩

/-- `const NAME: Type = value;` -/
def constDecl (g : Rules) : Parser ConstDecl := do
  expectKeyword .constKw
  let name ← name
  expect .colon
  let type ← g.type
  expect .eq
  let value ← expr g
  semicolon
  pure ⟨name, type, value⟩

/-! ## Structs, aliases and enums -/

/-- `var name: Type` or `name: Type` -/
def fieldDecl (g : Rules) : Parser FieldDecl := do
  let start ← start
  let isVar ← acceptKeyword .varKw
  let name ← name
  expect .colon
  let type ← g.type
  pure ⟨isVar, name, type, ← spanFrom start⟩

def fieldDecls (g : Rules) : Parser (List FieldDecl) := separatedMembers (fieldDecl g)

/-- A struct, after the keyword. -/
def structRest (g : Rules) : Parser StructDecl := do
  let name ← name
  let typeParams ← typeParams g
  let whereClause ← whereClause g
  let fields ← fieldDecls g
  pure ⟨name, typeParams, whereClause, fields⟩

/-- What is left behind a group in angle brackets, `depth` of which are open.  The group is given
up at the end, at an opening brace, a semicolon or an equals sign. -/
def afterAngles : Nat → List Lexeme → List Lexeme
  | _, [] => []
  | depth, lexeme :: rest =>
      match lexeme.token.kind with
      | .symbol .lt => afterAngles (depth + 1) rest
      | .symbol .gt => if depth ≤ 1 then rest else afterAngles (depth - 1) rest
      | .symbol .leftBrace | .symbol .semicolon | .symbol .eq => lexeme :: rest
      | _ => afterAngles depth rest

/-- After `type`, whether a struct is declared and not an alias: behind the name and its
parameters stands a body or a `where` clause. -/
def declaresStruct (s : State) : Bool :=
  let rest := s.rest.drop 1
  let opensAngles := match rest with
    | lexeme :: _ => lexeme.token.kind.isSymbol .lt
    | [] => false
  s.kind.isName &&
    match if opensAngles then afterAngles 0 rest else rest with
    | lexeme :: _ =>
        lexeme.token.kind.isSymbol .leftBrace || lexeme.token.kind.isKeyword .whereKw
    | [] => false

/-- `type Name<T> = Other;`, an alias, or `type Name<T> { fields }`, a struct. -/
def typeDecl (g : Rules) : Parser ItemKind := do
  expectKeyword .typeKw
  if ← query declaresStruct then
    pure (.struct (← structRest g))
  else
    let name ← name
    let typeParams ← typeParams g
    if ← accept .eq then
      let type ← g.type
      semicolon
      pure (.typeAlias ⟨name, typeParams, type⟩)
    else
      expected .aliasOrFields

/-- `struct Name<T> where … { fields }` -/
def structDecl (g : Rules) : Parser StructDecl := do
  advance
  structRest g

def variantKind (g : Rules) : Parser VariantKind := do
  if ← accept .leftParen then
    pure (.tuple (← commaList .rightParen g.type))
  else if ← sees .leftBrace then
    pure (.struct (← fieldDecls g))
  else
    pure .unit

/-- `Name`, `Name(T, U)` or `Name { field: T }` -/
def variant (g : Rules) : Parser Variant := do
  let start ← start
  let name ← name
  let kind ← variantKind g
  pure ⟨name, kind, ← spanFrom start⟩

def enumDecl (g : Rules) : Parser EnumDecl := do
  expectKeyword .enumKw
  let name ← name
  let typeParams ← typeParams g
  let whereClause ← whereClause g
  let variants ← separatedMembers (variant g)
  pure ⟨name, typeParams, whereClause, variants⟩

/-! ## Wire types -/

/-- The names of the primitive types on the wire. -/
def wirePrimitives : List String :=
  ["u8", "u16", "u32", "u64", "i8", "i16", "i32", "i64", "f32", "f64", "bool", "bytes", "string"]

/-- `list[T]` as often as `depth` says, from the inside out, the opening parts having been read. -/
def closeLists : Nat → WireType → Parser WireType
  | 0, type => pure type
  | depth + 1, type => do
      expect .rightBracket
      closeLists depth (.list type)

/-- A primitive type, a named one, or `list[T]`.  Lists in lists are read in a row. -/
def wireType : Parser WireType := do
  let (depth, base) ← loop (fun (depth, _) => do
      let name ← valueOf (fun | .ident name => some name | _ => none) .wireType
      if ← query fun s => name == "list" && s.kind.isSymbol .leftBracket then
        advance
        pure (true, depth + 1, name)
      else
        pure (false, depth, name))
    (0, "")
  closeLists depth (if wirePrimitives.contains base then .primitive base else .named base)

/-- `(1, 2, 3)` -/
def tagList : Parser (List UInt64) := do
  expect .leftParen
  let first ← integer
  let more ← commaTail .rightParen integer
  pure (first :: more)

/-- One attribute of a field, or nothing. -/
def wireAttr (g : Rules) : Parser (Option WireAttr) := do
  if ← acceptWord "optional" then
    pure (some .optional)
  else if ← acceptWord "deprecated" then
    pure (some .deprecated)
  else if ← acceptWord "default" then
    expect .leftParen
    let value ← expr g
    expect .rightParen
    pure (some (.default value))
  else if ← acceptWord "reserved" then
    pure (some (.reserved (← tagList)))
  else
    pure none

/-- `name: Type @tag attributes` -/
def wireField (g : Rules) : Parser WireField := do
  let start ← start
  let name ← name
  expect .colon
  let type ← wireType
  let tag ← optional (accept .atSign) integer
  let attrs ← collect do
    match ← wireAttr g with
    | some attr => pure (true, [attr])
    | none => pure (false, [])
  pure ⟨name, type, tag, attrs, ← spanFrom start⟩

/-- `reserved(1, 2)` -/
def reservedTags : Parser WireMember := do
  let start ← start
  advance
  let tags ← tagList
  pure (.reserved tags (← spanFrom start))

def wireMember (g : Rules) : Parser WireMember := do
  if ← query fun s => s.kind.isWord "reserved" && (s.peek 1).isSymbol .leftParen then
    reservedTags
  else if ← query fun s => (s.peek 1).isSymbol .colon then
    pure (.field (← wireField g))
  else
    pure (.variant (← variant g))

def wireKind : Parser WireKind := do
  if ← acceptKeyword .structKw then
    pure .struct
  else if ← acceptKeyword .enumKw then
    pure .enum
  else
    expected .wireKind

/-- `wire struct Name { … }` or `wire enum Name { … }` -/
def wireDecl (g : Rules) : Parser WireDecl := do
  expectKeyword .wireKw
  let kind ← wireKind
  let name ← name
  let members ← separatedMembers (wireMember g)
  pure ⟨kind, name, members⟩

/-! ## Functions -/

/-- `self`, `self: Type` or `name: Type` -/
def param (g : Rules) : Parser Param := do
  let start ← start
  if ← acceptKeyword .selfKw then
    let type ← typeAfterColon g
    pure ⟨"self", type, ← spanFrom start⟩
  else
    let name ← name
    expect .colon
    let type ← g.type
    pure ⟨name, some type, ← spanFrom start⟩

/-- `(self, name: Type)` -/
def params (g : Rules) : Parser (List Param) := do
  expect .leftParen
  commaList .rightParen (param g)

/-- `(name: Type, ...)`, and whether the dots are there. -/
def variadicParams (g : Rules) : Parser (List Param × Bool) := do
  expect .leftParen
  let (params, variadic) ← loop (fun (params, _) => do
      if ← sees .rightParen then
        pure (false, params, false)
      else if ← accept .dotDotDot then
        pure (false, params, true)
      else
        let next ← param g
        pure (← accept .comma, next :: params, false))
    (([] : List Param), false)
  expect .rightParen
  pure (params.reverse, variadic)

/-- Whether a function must have a body. -/
inductive BodyRule where
  | required
  /-- A semicolon may stand in its place. -/
  | optional
  deriving DecidableEq, Repr

def fnBody (g : Rules) (rule : BodyRule) : Parser (Option Block) := do
  if ← query fun s => rule == .optional && s.kind.isSymbol .semicolon then
    advance
    pure none
  else
    let body ← g.block
    pure (some body)

/-- The result type of a function; a generator must have one. -/
def fnResult (g : Rules) (flavor : FnFlavor) : Parser (Option TypeExpr) := do
  let ret ← resultType g
  if flavor.isGenerator && ret.isNone then expected .yieldType else pure ret

/-- A function, after `fn`; `start` is where it began. -/
def fnRest (g : Rules) (start : Nat) (flavor : FnFlavor) (rule : BodyRule) : Parser FnDecl := do
  let name ← name
  let typeParams ← typeParams g
  let params ← params g
  let ret ← fnResult g flavor
  let whereClause ← whereClause g
  let body ← fnBody g rule
  let span ← spanFrom start
  pure { flavor, name, typeParams, params, ret, whereClause, body, span }

/-- `async gen fn name<T>(params) -> R where … { … }` -/
def fnDecl (g : Rules) (rule : BodyRule) : Parser FnDecl := do
  let start ← start
  let isAsync ← acceptKeyword .asyncKw
  let isGen ← acceptKeyword .genKw
  expectKeyword .fnKw
  fnRest g start (.ofWords isAsync isGen) rule

/-- `fn name(params) -> R;` in an `extern` block. -/
def externFn (g : Rules) : Parser ExternFn := do
  let start ← start
  expectKeyword .fnKw
  let name ← name
  let (params, dots) ← variadicParams g
  let ret ← resultType g
  let moreDots ← accept .dotDotDot
  semicolon
  pure ⟨name, params, ret, dots || moreDots, ← spanFrom start⟩

/-- `extern "C" { … }` -/
def externBlock (g : Rules) : Parser ExternBlock := do
  expectKeyword .externKw
  let abi ← string
  let fns ← members (externFn g)
  pure ⟨abi, fns⟩

/-! ## Traits and implementations -/

/-- `type Name: Bound = Default;` -/
def traitType (g : Rules) : Parser TraitItem := do
  let start ← start
  advance
  let name ← name
  let bounds ← boundsAfterColon g
  let default ← optional (accept .eq) g.type
  semicolon
  pure (.assocType name bounds default (← spanFrom start))

def traitItem (g : Rules) : Parser TraitItem := do
  if ← seesKeyword .typeKw then
    traitType g
  else
    pure (.method (← fnDecl g .optional))

/-- `trait Name<T>: A + B where … { … }` -/
def traitDecl (g : Rules) : Parser TraitDecl := do
  expectKeyword .traitKw
  let name ← name
  let typeParams ← typeParams g
  let supertraits ← boundsAfterColon g
  let whereClause ← whereClause g
  let items ← members (traitItem g)
  pure ⟨name, typeParams, supertraits, whereClause, items⟩

/-- `type Name = Type;` -/
def implType (g : Rules) : Parser ImplItem := do
  let start ← start
  advance
  let name ← name
  expect .eq
  let type ← g.type
  semicolon
  pure (.assocType name type (← spanFrom start))

def implItem (g : Rules) : Parser ImplItem := do
  if ← seesKeyword .typeKw then
    implType g
  else
    pure (.method (← fnDecl g .required))

/-- The trait that a type names, where it stands before `for`. -/
def traitOf (type : TypeExpr) : Parser Bound :=
  match type.kind with
  | .named path args => pure ⟨joinPath path, args, type.span⟩
  | _ => fun _ s => .fail ⟨.expected .traitName (.keyword .forKw), type.span⟩ s

/-- `Trait for Type`, or `Type` alone. -/
def implHead (g : Rules) : Parser (Option Bound × TypeExpr) := do
  let first ← g.type
  if ← acceptKeyword .forKw then
    let traitRef ← traitOf first
    let selfType ← g.type
    pure (some traitRef, selfType)
  else
    pure (none, first)

/-- `impl<T> Trait<A> for Type where … { … }` or `impl Type { … }` -/
def implDecl (g : Rules) : Parser ImplDecl := do
  expectKeyword .implKw
  let typeParams ← typeParams g
  let (traitRef, selfType) ← implHead g
  let whereClause ← whereClause g
  let items ← members (implItem g)
  pure ⟨typeParams, traitRef, selfType, whereClause, items⟩

/-! ## Actors -/

/-- The policy after `fallback`. -/
def overflowFallback : Parser OverflowFallback :=
  valueOf (fun | .ident word => OverflowFallback.ofName? word | _ => none) .fallbackPolicy

/-- The policy after `overflow`. -/
def overflowPolicy : Parser OverflowPolicy := do
  if ← acceptWord "coalesce" then
    expect .leftParen
    let reducer ← name
    expect .rightParen
    let fallback ← optional (acceptWord "fallback") overflowFallback
    pure (.coalesce reducer fallback)
  else
    let policy ←
      valueOf (fun | .ident word => OverflowFallback.ofName? word | _ => none) .overflowPolicy
    pure (.simple policy)

/-- `mailbox 100 overflow policy;` -/
def mailboxDecl : Parser MailboxDecl := do
  let start ← start
  expectKeyword .mailboxKw
  let capacity ← integer
  let overflow ← optional (acceptWord "overflow") overflowPolicy
  semicolon
  pure ⟨capacity, overflow, ← spanFrom start⟩

/-- `let name: Type = value;` or `var name: Type = value;` -/
def actorField (g : Rules) : Parser ActorMember := do
  let start ← start
  let isVar ← seesKeyword .varKw
  advance
  let name ← name
  expect .colon
  let type ← g.type
  let init ← optional (accept .eq) (expr g)
  semicolon
  pure (.field isVar name type init (← spanFrom start))

/-- `receive gen fn …` -/
def receiveFn (g : Rules) : Parser ActorMember := do
  let start ← start
  advance
  let isGen ← acceptKeyword .genKw
  expectKeyword .fnKw
  pure (.receive (← fnRest g start (.ofWords false isGen) .required))

def actorMember (g : Rules) : Parser ActorMember := do
  match ← kind with
  | .keyword .letKw | .keyword .varKw => actorField g
  | .keyword .mailboxKw => do pure (.mailbox (← mailboxDecl))
  | .ident "receive" => receiveFn g
  | .keyword .fnKw | .keyword .genKw | .keyword .asyncKw => do
      pure (.method (← fnDecl g .required))
  | _ => expected .actorMember

/-- `init(params) { … }` -/
def actorInit (g : Rules) : Parser ActorInit := do
  let start ← start
  advance
  let params ← params g
  let body ← g.block
  pure ⟨params, body, ← spanFrom start⟩

/-- One part of an actor's body, added to the `init` block and the members read before, the last
one first.  A second `init` block is reported and dropped. -/
def actorPart (g : Rules) (found : Option ActorInit × List ActorMember) :
    Parser (Option ActorInit × List ActorMember) := do
  if ← query fun s => s.kind.isWord "init" && (s.peek 1).isSymbol .leftParen then
    let keyword ← span
    let decl ← actorInit g
    match found.1 with
    | none => pure (some decl, found.2)
    | some first =>
        record ⟨.duplicate .initBlock, keyword⟩
        pure (some first, found.2)
  else
    let next ← actorMember g
    pure (found.1, next :: found.2)

/-- `actor Name<T>: A + B where … { … }` -/
def actorDecl (g : Rules) : Parser ActorDecl := do
  expectKeyword .actorKw
  let name ← name
  let typeParams ← typeParams g
  let bounds ← boundsAfterColon g
  let whereClause ← whereClause g
  let (init, members) ← membersIn (actorPart g) (none, [])
  pure ⟨name, typeParams, bounds, whereClause, init, members.reverse⟩

/-! ## Supervisors -/

/-- `(word)`, where the word must name something. -/
def namedArg {α : Type} (ofName? : String → Option α) (wanted : Expected) : Parser α := do
  expect .leftParen
  let value ← valueOf (fun | .ident word => ofName? word | _ => none) wanted
  expect .rightParen
  pure value

/-- `(count, window)` -/
def restartBudget : Parser RestartBudget := do
  expect .leftParen
  let maxRestarts ← integer
  expect .comma
  let window ← duration
  expect .rightParen
  pure ⟨maxRestarts, window⟩

/-- After `restart`: `(policy) budget(n, window) strategy(s)` -/
def restartSpec : Parser RestartSpec := do
  let policy ← namedArg RestartPolicy.ofName? .restartPolicy
  let budget ← optional (acceptWord "budget") restartBudget
  let strategy ←
    optional (acceptWord "strategy") (namedArg RestartStrategy.ofName? .restartStrategy)
  pure ⟨policy, budget, strategy⟩

/-- `child name: Actor restart…;` -/
def childSpec : Parser ChildSpec := do
  let start ← start
  expectWord "child"
  let name ← name
  expect .colon
  let actor ← Parser.name
  let restart ← optional (acceptWord "restart") restartSpec
  semicolon
  pure ⟨name, actor, restart, ← spanFrom start⟩

/-- `name: value` -/
def supervisorField (g : Rules) : Parser SupervisorMember := do
  let start ← start
  let name ← name
  expect .colon
  let value ← expr g
  let span ← spanFrom start
  memberSeparator
  pure (.field name value span)

/-- `child: 3` is a field like any other. -/
def supervisorMember (g : Rules) : Parser SupervisorMember := do
  if ← query fun s => s.kind.isWord "child" && !(s.peek 1).isSymbol .colon then
    pure (.child (← childSpec))
  else
    supervisorField g

def supervisorDecl (g : Rules) : Parser SupervisorDecl := do
  expectKeyword .supervisorKw
  let name ← name
  let members ← members (supervisorMember g)
  pure ⟨name, members⟩

/-! ## Items and programs -/

def itemKind (g : Rules) : Parser ItemKind := do
  match ← kind with
  | .keyword .importKw => do pure (.importDecl (← importDecl))
  | .keyword .constKw => do pure (.const (← constDecl g))
  | .keyword .typeKw => typeDecl g
  | .keyword .structKw => do pure (.struct (← structDecl g))
  | .keyword .enumKw => do pure (.enum (← enumDecl g))
  | .keyword .wireKw => do pure (.wire (← wireDecl g))
  | .keyword .traitKw => do pure (.trait (← traitDecl g))
  | .keyword .implKw => do pure (.impl (← implDecl g))
  | .keyword .fnKw | .keyword .genKw | .keyword .asyncKw => do pure (.fn (← fnDecl g .required))
  | .keyword .externKw => do pure (.externBlock (← externBlock g))
  | .keyword .actorKw => do pure (.actor (← actorDecl g))
  | .keyword .supervisorKw => do pure (.supervisor (← supervisorDecl g))
  | _ => expected .item

/-- A declaration with its visibility. -/
def item (g : Rules) : Parser Item := do
  let start ← start
  let vis ← visibility
  let kind ← itemKind g
  node start fun id span => ⟨id, vis, kind, span⟩

/-- All declarations up to the end of the input. -/
def program (g : Rules) : Parser Program := do
  let items ← loop (fun items => do
      if ← atEnd then
        pure (false, items)
      else
        resilient .items (fun items => do
          let next ← item g
          pure (next :: items)) items)
    []
  let stop ← span
  pure ⟨items.reverse, ⟨0, stop.stop⟩⟩

end ActorFrontend.Parser

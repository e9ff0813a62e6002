import ActorFrontend.Tree.Expr

/-!
# Declarations

What a source declares at its top level, and what the bodies of declarations hold.
-/

namespace ActorFrontend

/-- Who may use a declaration. -/
inductive Visibility where
  | privateVis
  /-- `pub` -/
  | publicVis
  /-- `pub(package)` -/
  | packageVis
  /-- `pub(super)` -/
  | superVis
  deriving DecidableEq, Repr

/-! ## Imports, constants and aliases -/

/-- What an import takes from the module that it names. -/
inductive ImportSpec where
  /-- The module itself. -/
  | whole
  | names (names : List String)
  | glob
  deriving DecidableEq, Repr

structure ImportDecl where
  path : List String
  spec : ImportSpec

structure ConstDecl where
  name : String
  type : TypeExpr
  value : Expr

structure TypeAliasDecl where
  name : String
  typeParams : List TypeParam
  type : TypeExpr

/-! ## Structs and enums -/

structure FieldDecl where
  isVar : Bool
  name : String
  type : TypeExpr
  span : Span

structure StructDecl where
  name : String
  typeParams : List TypeParam
  whereClause : List WherePredicate
  fields : List FieldDecl

inductive VariantKind where
  | unit
  | tuple (types : List TypeExpr)
  | struct (fields : List FieldDecl)

structure Variant where
  name : String
  kind : VariantKind
  span : Span

structure EnumDecl where
  name : String
  typeParams : List TypeParam
  whereClause : List WherePredicate
  variants : List Variant

/-! ## Wire types -/

inductive WireKind where
  | struct
  | enum
  deriving DecidableEq, Repr

/-- The type of a field on the wire. -/
inductive WireType where
  | primitive (name : String)
  | named (name : String)
  | list (elem : WireType)
  deriving DecidableEq, Repr

inductive WireAttr where
  | optional
  | deprecated
  | default (value : Expr)
  | reserved (tags : List UInt64)

/-- `name: Type @tag attributes` -/
structure WireField where
  name : String
  type : WireType
  tag : Option UInt64
  attrs : List WireAttr
  span : Span

inductive WireMember where
  | field (field : WireField)
  | variant (variant : Variant)
  | reserved (tags : List UInt64) (span : Span)

structure WireDecl where
  kind : WireKind
  name : String
  members : List WireMember

def WireAttr.isOptional : WireAttr → Bool
  | .optional => true
  | _ => false

def WireField.isOptional (f : WireField) : Bool := f.attrs.any WireAttr.isOptional

/-! ## Functions -/

inductive FnFlavor where
  | plain
  /-- `gen fn` -/
  | gen
  /-- `async fn` -/
  | async
  /-- `async gen fn` -/
  | asyncGen
  deriving DecidableEq, Repr

namespace FnFlavor

def isGenerator : FnFlavor → Bool
  | .gen | .asyncGen => true
  | .plain | .async => false

/-- The flavor given by which of the two words stand before `fn`. -/
def ofWords (isAsync isGen : Bool) : FnFlavor :=
  match isAsync, isGen with
  | false, false => .plain
  | false, true => .gen
  | true, false => .async
  | true, true => .asyncGen

end FnFlavor

/-- A parameter; only a bare `self` has no type. -/
structure Param where
  name : String
  type : Option TypeExpr
  span : Span

/-- A function, also as a method or a handler. -/
structure FnDecl where
  flavor : FnFlavor
  name : String
  typeParams : List TypeParam
  params : List Param
  /-- What is returned; of a generator, what is yielded. -/
  ret : Option TypeExpr
  whereClause : List WherePredicate
  /-- Left out where only the signature is given. -/
  body : Option Block
  span : Span

structure ExternFn where
  name : String
  params : List Param
  ret : Option TypeExpr
  isVariadic : Bool
  span : Span

/-- Functions that are defined elsewhere, under a calling convention. -/
structure ExternBlock where
  abi : String
  fns : List ExternFn

/-! ## Traits and implementations -/

inductive TraitItem where
  | method (fn : FnDecl)
  | assocType (name : String) (bounds : List Bound) (default : Option TypeExpr) (span : Span)

structure TraitDecl where
  name : String
  typeParams : List TypeParam
  supertraits : List Bound
  whereClause : List WherePredicate
  items : List TraitItem

inductive ImplItem where
  | method (fn : FnDecl)
  | assocType (name : String) (type : TypeExpr) (span : Span)

structure ImplDecl where
  typeParams : List TypeParam
  /-- The trait that is implemented, if it is not the type's own methods. -/
  traitRef : Option Bound
  selfType : TypeExpr
  whereClause : List WherePredicate
  items : List ImplItem

/-! ## Actors -/

/-- What happens to a message that finds a mailbox full, in its simple forms. -/
inductive OverflowFallback where
  | block
  | dropNew
  | dropOld
  | fail
  deriving DecidableEq, Repr

def OverflowFallback.ofName? : String → Option OverflowFallback
  | "block" => some .block
  | "drop_new" => some .dropNew
  | "drop_old" => some .dropOld
  | "fail" => some .fail
  | _ => none

/-- What happens to a message that finds a mailbox full. -/
inductive OverflowPolicy where
  | simple (policy : OverflowFallback)
  /-- The message is merged with a waiting one; `fallback` serves where that is not possible. -/
  | coalesce (reducer : String) (fallback : Option OverflowFallback)
  deriving DecidableEq, Repr

structure MailboxDecl where
  capacity : UInt64
  overflow : Option OverflowPolicy
  span : Span

structure ActorInit where
  params : List Param
  body : Block
  span : Span

inductive ActorMember where
  | field (isVar : Bool) (name : String) (type : TypeExpr) (init : Option Expr) (span : Span)
  | mailbox (mailbox : MailboxDecl)
  | receive (fn : FnDecl)
  | method (fn : FnDecl)

structure ActorDecl where
  name : String
  typeParams : List TypeParam
  bounds : List Bound
  whereClause : List WherePredicate
  init : Option ActorInit
  members : List ActorMember

/-! ## Supervisors -/

inductive RestartPolicy where
  | permanent
  | transient
  | temporary
  deriving DecidableEq, Repr

def RestartPolicy.ofName? : String → Option RestartPolicy
  | "permanent" => some .permanent
  | "transient" => some .transient
  | "temporary" => some .temporary
  | _ => none

inductive RestartStrategy where
  | oneForOne
  | oneForAll
  | restForOne
  deriving DecidableEq, Repr

def RestartStrategy.ofName? : String → Option RestartStrategy
  | "one_for_one" => some .oneForOne
  | "one_for_all" => some .oneForAll
  | "rest_for_one" => some .restForOne
  | _ => none

/-- At most so many restarts within the window. -/
structure RestartBudget where
  maxRestarts : UInt64
  window : Duration
  deriving DecidableEq, Repr

structure RestartSpec where
  policy : RestartPolicy
  budget : Option RestartBudget
  strategy : Option RestartStrategy
  deriving DecidableEq, Repr

structure ChildSpec where
  name : String
  actor : String
  restart : Option RestartSpec
  span : Span

inductive SupervisorMember where
  | child (child : ChildSpec)
  | field (name : String) (value : Expr) (span : Span)

structure SupervisorDecl where
  name : String
  members : List SupervisorMember

/-! ## Programs -/

inductive ItemKind where
  | importDecl (decl : ImportDecl)
  | const (decl : ConstDecl)
  | typeAlias (decl : TypeAliasDecl)
  | struct (decl : StructDecl)
  | enum (decl : EnumDecl)
  | wire (decl : WireDecl)
  | trait (decl : TraitDecl)
  | impl (decl : ImplDecl)
  | fn (decl : FnDecl)
  | externBlock (decl : ExternBlock)
  | actor (decl : ActorDecl)
  | supervisor (decl : SupervisorDecl)

/-- The declared name, of those declarations that have one. -/
def ItemKind.name? : ItemKind → Option String
  | .const d => some d.name
  | .typeAlias d => some d.name
  | .struct d => some d.name
  | .enum d => some d.name
  | .wire d => some d.name
  | .trait d => some d.name
  | .fn d => some d.name
  | .actor d => some d.name
  | .supervisor d => some d.name
  | .importDecl _ | .impl _ | .externBlock _ => none

structure Item where
  id : NodeId
  vis : Visibility
  kind : ItemKind
  span : Span

/-- A whole source. -/
structure Program where
  items : List Item
  span : Span

end ActorFrontend

import ActorFrontend.Grammar.Types
import ActorFrontend.Proofs.Nesting.Shell

/-!
# How types are spelled

Which tokens spell a type: those that it is printed as, and those with more parentheses and more
commas than it needs.
-/

namespace ActorFrontend

variable {α : Type} {id : NodeId} {span : Span} {n : Nat} {t : TypeExpr} {ts : List TypeExpr}
  {b : Bound} {bs : List Bound} {ks : List TokenKind}

/-! ## Spellings -/

/-- The tokens of a path. -/
def pathTokens : List String → List TokenKind
  | [] => []
  | first :: more => .ident first :: more.flatMap fun part => [.symbol .colonColon, .ident part]

/-- The tokens spell some things with commas between them; a comma may follow the last one. -/
inductive CommaSeparated (spelled : α → List TokenKind → Prop) : List α → List TokenKind → Prop where
  | nil : CommaSeparated spelled [] []
  | last {a : α} {ks : List TokenKind} (ha : spelled a ks) : CommaSeparated spelled [a] ks
  | cons {a : α} {as : List α} {ks ks' : List TokenKind} (ha : spelled a ks)
      (has : CommaSeparated spelled as ks') :
      CommaSeparated spelled (a :: as) (ks ++ .symbol .comma :: ks')

/-- The tokens spell some things with plus signs between them. -/
inductive PlusSeparated (spelled : α → List TokenKind → Prop) : List α → List TokenKind → Prop where
  | last {a : α} {ks : List TokenKind} (ha : spelled a ks) : PlusSeparated spelled [a] ks
  | cons {a : α} {as : List α} {ks ks' : List TokenKind} (ha : spelled a ks)
      (has : PlusSeparated spelled as ks') :
      PlusSeparated spelled (a :: as) (ks ++ .symbol .plus :: ks')

section

variable (inner : TypeExpr → List TokenKind → Prop)

/-- The tokens spell the arguments in their angle brackets, if there are any. -/
inductive TypeArgsSpelled : List TypeExpr → List TokenKind → Prop where
  | nil : TypeArgsSpelled [] []
  | some {ts : List TypeExpr} {ks : List TokenKind} (hts : CommaSeparated inner ts ks) :
      TypeArgsSpelled ts (.symbol .lt :: (ks ++ [.symbol .gt]))

/-- The tokens spell the bound. -/
inductive Bound.Spelled : Bound → List TokenKind → Prop where
  | intro {path : List String} {args : List TypeExpr} {span : Span} {ks : List TokenKind}
      (hpath : path ≠ []) (hargs : TypeArgsSpelled inner args ks) :
      Spelled ⟨Parser.joinPath path, args, span⟩ (pathTokens path ++ ks)

/-- The tokens spell the result of a function with its arrow, if there is one. -/
inductive ResultSpelled : Option TypeExpr → List TokenKind → Prop where
  | none : ResultSpelled none []
  | some {t : TypeExpr} {ks : List TokenKind} (ht : inner t ks) :
      ResultSpelled (some t) (.symbol .arrow :: ks)

/-- What stands between the star and the pointee. -/
def mutabilityTokens : Option PointerMutability → List TokenKind
  | none => []
  | some .const => [.keyword .constKw]
  | some .mut => [.ident "mut"]

/-- The tokens spell a type of this kind, if others spell the types that it is made of. -/
inductive TypeKind.Spelled : TypeKind → List TokenKind → Prop where
  | named {path : List String} {args : List TypeExpr} {ks : List TokenKind} (hpath : path ≠ [])
      (hargs : TypeArgsSpelled inner args ks) : Spelled (.named path args) (pathTokens path ++ ks)
  | unit : Spelled .unit [.symbol .leftParen, .symbol .rightParen]
  /-- A comma follows the first element in any case. -/
  | tuple {t : TypeExpr} {ts : List TypeExpr} {ks ks' : List TokenKind} (ht : inner t ks)
      (hts : CommaSeparated inner ts ks') : Spelled (.tuple (t :: ts))
        (.symbol .leftParen :: (ks ++ .symbol .comma :: ks' ++ [.symbol .rightParen]))
  | array {t : TypeExpr} {length : UInt64} {ks : List TokenKind} (ht : inner t ks) :
      Spelled (.array t length)
        (.symbol .leftBracket :: (ks ++ [.symbol .semicolon, .int length, .symbol .rightBracket]))
  | slice {t : TypeExpr} {ks : List TokenKind} (ht : inner t ks) :
      Spelled (.slice t) (.symbol .leftBracket :: (ks ++ [.symbol .rightBracket]))
  | function {params : List TypeExpr} {ret : Option TypeExpr} {ks ks' : List TokenKind}
      (hparams : CommaSeparated inner params ks) (hret : ResultSpelled inner ret ks') :
      Spelled (.function params ret)
        (.keyword .fnKw :: .symbol .leftParen :: (ks ++ .symbol .rightParen :: ks'))
  /-- A name `mut` behind the star would be taken for the word. -/
  | pointer {mutability : Option PointerMutability} {t : TypeExpr} {ks : List TokenKind}
      (hmut : mutability = none → ks.head? ≠ some (.ident "mut")) (ht : inner t ks) :
      Spelled (.pointer mutability t) (.symbol .star :: (mutabilityTokens mutability ++ ks))
  | traitObject {b : Bound} {ks : List TokenKind} (hb : b.Spelled inner ks) :
      Spelled (.traitObject [b]) (.keyword .dynKw :: ks)
  | traitObjects {bs : List Bound} {ks : List TokenKind}
      (hbs : PlusSeparated (Bound.Spelled inner) bs ks) :
      Spelled (.traitObject bs)
        (.keyword .dynKw :: .symbol .leftParen :: (ks ++ [.symbol .rightParen]))

/-- The tokens spell the type, perhaps in parentheses, if others spell what is within. -/
inductive TypeExpr.SpelledOver : TypeExpr → List TokenKind → Prop where
  | plain {id : NodeId} {span : Span} {kind : TypeKind} {ks : List TokenKind}
      (hkind : kind.Spelled inner ks) : SpelledOver ⟨id, span, kind⟩ ks
  | paren {t : TypeExpr} {ks : List TokenKind} (ht : inner t ks) :
      SpelledOver t (.symbol .leftParen :: (ks ++ [.symbol .rightParen]))

end

/-- The tokens spell the type on so many nesting levels.  Each pair of parentheses that only groups
takes a level as well. -/
def TypeExpr.Spelled : Nat → TypeExpr → List TokenKind → Prop
  | 0 => fun _ _ => False
  | n + 1 => SpelledOver (Spelled n)

/-! ## Printing -/

/-- The parts of a name that is a joined path. -/
def splitPath : List Char → List (List Char)
  | [] => [[]]
  | ':' :: ':' :: cs => [] :: splitPath cs
  | c :: cs =>
      match splitPath cs with
      | [] => [[c]]
      | part :: parts => (c :: part) :: parts

/-- The path that a bound names. -/
def Bound.path (b : Bound) : List String := (splitPath b.name.toList).map String.ofList

mutual

/-- The tokens that the type is printed as. -/
def TypeExpr.tokens : TypeExpr → List TokenKind
  | ⟨_, _, kind⟩ => kind.tokens

def TypeKind.tokens : TypeKind → List TokenKind
  | .named path args => pathTokens path ++ typeArgsTokens args
  | .unit => [.symbol .leftParen, .symbol .rightParen]
  | .tuple elems => .symbol .leftParen :: (tupleTokens elems ++ [.symbol .rightParen])
  | .array elem length =>
      .symbol .leftBracket ::
        (elem.tokens ++ [.symbol .semicolon, .int length, .symbol .rightBracket])
  | .slice elem => .symbol .leftBracket :: (elem.tokens ++ [.symbol .rightBracket])
  | .function params ret =>
      .keyword .fnKw :: .symbol .leftParen ::
        (typesTokens params ++ .symbol .rightParen :: resultTokens ret)
  | .pointer mutability pointee =>
      .symbol .star :: (mutabilityTokens mutability ++ pointee.tokens)
  | .traitObject [b] => .keyword .dynKw :: b.tokens
  | .traitObject bounds =>
      .keyword .dynKw :: .symbol .leftParen :: (boundsTokens bounds ++ [.symbol .rightParen])

def Bound.tokens : Bound → List TokenKind
  | ⟨name, args, span⟩ => pathTokens (Bound.path ⟨name, args, span⟩) ++ typeArgsTokens args

def resultTokens : Option TypeExpr → List TokenKind
  | none => []
  | some t => .symbol .arrow :: t.tokens

def typeArgsTokens : List TypeExpr → List TokenKind
  | [] => []
  | t :: ts => .symbol .lt :: (t.tokens ++ moreTypesTokens ts ++ [.symbol .gt])

/-- Types with commas between them. -/
def typesTokens : List TypeExpr → List TokenKind
  | [] => []
  | t :: ts => t.tokens ++ moreTypesTokens ts

/-- Types with commas before them. -/
def moreTypesTokens : List TypeExpr → List TokenKind
  | [] => []
  | t :: ts => .symbol .comma :: (t.tokens ++ moreTypesTokens ts)

/-- A comma follows the first element, also where it is the only one. -/
def tupleTokens : List TypeExpr → List TokenKind
  | [] => []
  | t :: ts => t.tokens ++ .symbol .comma :: typesTokens ts

def boundsTokens : List Bound → List TokenKind
  | [] => []
  | b :: bs => b.tokens ++ moreBoundsTokens bs

/-- Bounds with plus signs before them. -/
def moreBoundsTokens : List Bound → List TokenKind
  | [] => []
  | b :: bs => .symbol .plus :: (b.tokens ++ moreBoundsTokens bs)

end

/-- Whether the type is a path that starts with the name `mut`. -/
def TypeExpr.startsWithMut (t : TypeExpr) : Bool :=
  match t.kind with
  | .named path _ => path.head? == some "mut"
  | _ => false

mutual

/-- Whether the type can be printed: no path in it, no tuple and no list of bounds is empty, and no
path behind a lone star starts with the name `mut`. -/
def TypeExpr.isPrintable : TypeExpr → Bool
  | ⟨_, _, kind⟩ => kind.isPrintable

def TypeKind.isPrintable : TypeKind → Bool
  | .named path args => !path.isEmpty && typesPrintable args
  | .unit => true
  | .tuple elems => !elems.isEmpty && typesPrintable elems
  | .array elem _ => elem.isPrintable
  | .slice elem => elem.isPrintable
  | .function params none => typesPrintable params
  | .function params (some ret) => typesPrintable params && ret.isPrintable
  | .pointer mutability pointee =>
      (mutability.isSome || !pointee.startsWithMut) && pointee.isPrintable
  | .traitObject bounds => !bounds.isEmpty && boundsPrintable bounds

def Bound.isPrintable : Bound → Bool
  | ⟨_, args, _⟩ => typesPrintable args

def typesPrintable : List TypeExpr → Bool
  | [] => true
  | t :: ts => t.isPrintable && typesPrintable ts

def boundsPrintable : List Bound → Bool
  | [] => true
  | b :: bs => b.isPrintable && boundsPrintable bs

end

@[simp] theorem typesPrintable_iff : typesPrintable ts = true ↔ ∀ t ∈ ts, t.isPrintable = true := by
  induction ts with
  | nil => simp [typesPrintable]
  | cons t ts ih => simp [typesPrintable, ih]

@[simp] theorem boundsPrintable_iff : boundsPrintable bs = true ↔ ∀ b ∈ bs, b.isPrintable = true := by
  induction bs with
  | nil => simp [boundsPrintable]
  | cons b bs ih => simp [boundsPrintable, ih]

/-! ## What is printed is a spelling -/

section

variable {inner : TypeExpr → List TokenKind → Prop}

theorem CommaSeparated.of_tokens (ht : inner t t.tokens) (hts : ∀ t ∈ ts, inner t t.tokens) :
    CommaSeparated inner (t :: ts) (t.tokens ++ moreTypesTokens ts) := by
  induction ts generalizing t with
  | nil =>
    rw [moreTypesTokens, List.append_nil]
    exact .last ht
  | cons u ts ih =>
    obtain ⟨hu, hts⟩ := List.forall_mem_cons.1 hts
    exact .cons ht (ih hu hts)

theorem CommaSeparated.of_typesTokens (hts : ∀ t ∈ ts, inner t t.tokens) :
    CommaSeparated inner ts (typesTokens ts) := by
  cases ts with
  | nil => exact .nil
  | cons t ts => exact .of_tokens (List.forall_mem_cons.1 hts).1 (List.forall_mem_cons.1 hts).2

theorem TypeArgsSpelled.of_tokens (hts : ∀ t ∈ ts, inner t t.tokens) :
    TypeArgsSpelled inner ts (typeArgsTokens ts) := by
  cases ts with
  | nil => exact .nil
  | cons t ts => exact .some (.of_typesTokens hts)

theorem splitPath_ne_nil (cs : List Char) : splitPath cs ≠ [] := by
  fun_cases splitPath cs
  all_goals exact List.cons_ne_nil _ _

theorem joinPath_splitPath (cs : List Char) :
    Parser.joinPath ((splitPath cs).map String.ofList) = String.ofList cs := by
  unfold Parser.joinPath
  fun_induction splitPath cs with
  | case1 => rfl
  | case2 cs ih =>
    have hmore : (splitPath cs).map String.ofList ≠ [] := by simp [splitPath_ne_nil]
    rw [List.map_cons, String.intercalate_cons_of_ne_nil hmore, ih]
    simp [← String.toList_inj]
  | case3 c cs _ hnil => exact absurd hnil (splitPath_ne_nil cs)
  | case4 c cs _ part parts hcons ih =>
    have hfirst : String.ofList (c :: part) = String.ofList [c] ++ String.ofList part := by simp
    rw [hcons, List.map_cons] at ih
    rw [List.map_cons, hfirst, String.intercalate_cons_append, ih]
    simp

theorem Bound.spelled_tokens (hargs : ∀ t ∈ b.args, inner t t.tokens) : b.Spelled inner b.tokens := by
  obtain ⟨name, args, span⟩ := b
  have hname : Parser.joinPath (Bound.path ⟨name, args, span⟩) = name := by
    rw [Bound.path, joinPath_splitPath, String.ofList_toList]
  have hspelled : Bound.Spelled inner ⟨Parser.joinPath (Bound.path ⟨name, args, span⟩), args, span⟩
      (pathTokens (Bound.path ⟨name, args, span⟩) ++ typeArgsTokens args) :=
    .intro (by simp [Bound.path, splitPath_ne_nil]) (.of_tokens hargs)
  rwa [hname] at hspelled

theorem PlusSeparated.of_tokens (hb : b.Spelled inner b.tokens)
    (hbs : ∀ b ∈ bs, b.Spelled inner b.tokens) :
    PlusSeparated (Bound.Spelled inner) (b :: bs) (boundsTokens (b :: bs)) := by
  induction bs generalizing b with
  | nil =>
    rw [boundsTokens, moreBoundsTokens, List.append_nil]
    exact .last hb
  | cons b' bs ih =>
    obtain ⟨hb', hbs⟩ := List.forall_mem_cons.1 hbs
    exact .cons hb (ih hb' hbs)

/-- The name `mut` starts only the tokens of paths that start with it. -/
theorem TypeExpr.head?_tokens_ne_mut (ht : t.isPrintable = true) (hmut : t.startsWithMut = false) :
    t.tokens.head? ≠ some (.ident "mut") := by
  obtain ⟨id, span, kind⟩ := t
  cases kind with
  | named path args =>
    cases path with
    | nil => cases ht
    | cons first more => simpa [startsWithMut, tokens, TypeKind.tokens, pathTokens] using hmut
  | traitObject bounds =>
    cases bounds with
    | nil => cases ht
    | cons b bs => cases bs <;> simp [tokens, TypeKind.tokens]
  | _ => simp [tokens, TypeKind.tokens]

theorem TypeKind.spelled_tokens {kind : TypeKind} (hkind : kind.isPrintable = true)
    (h : ∀ t : TypeExpr, t.isPrintable = true → Shell.depthOf t.shells ≤ n → inner t t.tokens)
    (hdepth : Shell.depthOf kind.shells ≤ n) : kind.Spelled inner kind.tokens := by
  have htypes (ts : List TypeExpr) (hts : typesPrintable ts = true)
      (hdepth : Shell.depthOf (shellsOfTypes ts) ≤ n) : ∀ t ∈ ts, inner t t.tokens := by
    intro t ht
    refine h t (typesPrintable_iff.1 hts t ht) (Shell.depthOf_le_iff.2 fun shell hshell => ?_)
    rw [shellsOfTypes_eq] at hdepth
    exact Shell.depthOf_le_iff.1 hdepth shell (List.mem_flatMap.2 ⟨t, ht, hshell⟩)
  have hbounds (bs : List Bound) (hbs : boundsPrintable bs = true)
      (hdepth : Shell.depthOf (shellsOfBounds bs) ≤ n) : ∀ b ∈ bs, b.Spelled inner b.tokens := by
    rintro ⟨name, args, span⟩ hb
    refine Bound.spelled_tokens (htypes args (boundsPrintable_iff.1 hbs _ hb)
      (Shell.depthOf_le_iff.2 fun shell hshell => ?_))
    rw [shellsOfBounds_eq] at hdepth
    exact Shell.depthOf_le_iff.1 hdepth shell (List.mem_flatMap.2 ⟨_, hb, hshell⟩)
  cases kind with
  | named path args =>
    obtain ⟨hpath, hargs⟩ := Bool.and_eq_true_iff.1 hkind
    exact .named (by simpa using hpath) (.of_tokens (htypes args hargs hdepth))
  | unit => exact .unit
  | tuple elems =>
    obtain ⟨-, helems⟩ := Bool.and_eq_true_iff.1 hkind
    cases elems with
    | nil => cases hkind
    | cons t ts =>
      obtain ⟨ht, hts⟩ := List.forall_mem_cons.1 (htypes _ helems hdepth)
      exact .tuple ht (.of_typesTokens hts)
  | array elem length => exact .array (h elem hkind hdepth)
  | slice elem => exact .slice (h elem hkind hdepth)
  | function params ret =>
    cases ret with
    | none => exact .function (.of_typesTokens (htypes params hkind hdepth)) .none
    | some ret =>
      obtain ⟨hparams, hret⟩ := Bool.and_eq_true_iff.1 hkind
      have hall := Shell.depthOf_le_iff.1 hdepth
      refine .function (.of_typesTokens (htypes params hparams ?_)) (.some (h ret hret ?_))
      · exact Shell.depthOf_le_iff.2 fun shell hshell => hall shell (List.mem_append_left _ hshell)
      · exact Shell.depthOf_le_iff.2 fun shell hshell => hall shell (List.mem_append_right _ hshell)
  | pointer mutability pointee =>
    obtain ⟨hmut, hpointee⟩ := Bool.and_eq_true_iff.1 hkind
    refine .pointer ?_ (h pointee hpointee hdepth)
    rintro rfl
    exact TypeExpr.head?_tokens_ne_mut hpointee (by simpa using hmut)
  | traitObject bounds =>
    obtain ⟨-, hall⟩ := Bool.and_eq_true_iff.1 hkind
    match bounds with
    | [] => cases hkind
    | [b] => exact .traitObject (hbounds [b] hall hdepth b List.mem_cons_self)
    | b :: b' :: bs =>
      obtain ⟨hb, hbs⟩ := List.forall_mem_cons.1 (hbounds _ hall hdepth)
      exact .traitObjects (.of_tokens hb hbs)

end

/-- The tokens that a type is printed as spell it, on as many levels as it has. -/
theorem TypeExpr.spelled_tokens (ht : t.isPrintable = true) (hn : Shell.depthOf t.shells ≤ n) :
    t.Spelled n t.tokens := by
  induction n generalizing t with
  | zero =>
    obtain ⟨id, span, kind⟩ := t
    simp [Shell.depthOf, Shell.depth] at hn
  | succ n ih =>
    obtain ⟨id, span, kind⟩ := t
    refine .plain (TypeKind.spelled_tokens ht (fun t => ih) ?_)
    simpa [Shell.depthOf, Shell.depth] using hn

end ActorFrontend

import ActorFrontend.Grammar.Patterns
import ActorFrontend.Proofs.TypeText.Spelling

/-!
# How patterns are spelled

Which tokens spell a pattern.  Any pattern may stand in parentheses, and so may any alternatives that
follow each other: such a group is not a node of the tree, its alternatives count as those of the
pattern around it.
-/

namespace ActorFrontend

variable {n : Nat} {p : Pattern} {ps : List Pattern} {f : FieldPattern} {fs : List FieldPattern}
  {ks : List TokenKind}

/-! ## Spellings -/

/-- The token of a literal. -/
def Literal.token : Literal → TokenKind
  | .int value => .int value
  | .float value => .float value
  | .string value => .string value
  | .bool value => .bool value
  | .none => .keyword .noneKw

/-- The path starts with a name, and not with the underscore, which is a pattern by itself. -/
def startsNamed (path : List String) : Bool :=
  match path with
  | [] => false
  | first :: _ => first != "_"

def Pattern.isOr (p : Pattern) : Bool :=
  match p.kind with
  | .or _ => true
  | _ => false

section

variable (inner : Pattern → List TokenKind → Prop)

/-- The tokens spell a field of a struct pattern. -/
inductive FieldPattern.Spelled : FieldPattern → List TokenKind → Prop where
  | short {name : String} {span : Span} : Spelled ⟨name, none, span⟩ [.ident name]
  | long {name : String} {p : Pattern} {span : Span} {ks : List TokenKind} (hp : inner p ks) :
      Spelled ⟨name, some p, span⟩ (.ident name :: .symbol .colon :: ks)

/-- The tokens spell a pattern of this kind, if others spell the patterns that it is made of. -/
inductive PatternKind.Spelled : PatternKind → List TokenKind → Prop where
  | wildcard : Spelled .wildcard [.ident "_"]
  | ident {name : String} (hname : name ≠ "_") : Spelled (.ident name) [.ident name]
  | path {path : List String} (hpath : startsNamed path = true) (hlong : 2 ≤ path.length) :
      Spelled (.path path) (pathTokens path)
  | literal {literal : LiteralNode} : Spelled (.literal literal) [literal.value.token]
  | negated {id : NodeId} {span : Span} {number : LiteralNode}
      (hnumber : Parser.isNumber number.value.token = true) :
      Spelled (.negated id span number) [.symbol .minus, number.value.token]
  | unit : Spelled (.tuple []) [.symbol .leftParen, .symbol .rightParen]
  /-- A comma follows the first element in any case. -/
  | tuple {p : Pattern} {ps : List Pattern} {ks ks' : List TokenKind} (hp : inner p ks)
      (hps : CommaSeparated inner ps ks') : Spelled (.tuple (p :: ps))
        (.symbol .leftParen :: (ks ++ .symbol .comma :: ks' ++ [.symbol .rightParen]))
  | struct {path : List String} {fields : List FieldPattern} {ks : List TokenKind}
      (hpath : startsNamed path = true)
      (hfields : CommaSeparated (FieldPattern.Spelled inner) fields ks) :
      Spelled (.struct path fields)
        (pathTokens path ++ .symbol .leftBrace :: (ks ++ [.symbol .rightBrace]))
  | constructor {path : List String} {args : List Pattern} {ks : List TokenKind}
      (hpath : startsNamed path = true) (hargs : CommaSeparated inner args ks) :
      Spelled (.constructor path args)
        (pathTokens path ++ .symbol .leftParen :: (ks ++ [.symbol .rightParen]))

/-- The tokens spell the pattern without a bar outside parentheses. -/
inductive Pattern.SpelledAlone : Pattern → List TokenKind → Prop where
  | plain {id : NodeId} {span : Span} {kind : PatternKind} {ks : List TokenKind}
      (hkind : kind.Spelled inner ks) : SpelledAlone ⟨id, span, kind⟩ ks
  | paren {p : Pattern} {ks : List TokenKind} (hp : inner p ks) :
      SpelledAlone p (.symbol .leftParen :: (ks ++ [.symbol .rightParen]))

/-- The tokens between two bars spell a single alternative or a group of them. -/
inductive AlternativeSpelled : List Pattern → List TokenKind → Prop where
  | one {p : Pattern} {ks : List TokenKind} (hp : p.SpelledAlone inner ks) (hone : p.isOr = false) :
      AlternativeSpelled [p] ks
  | group {id : NodeId} {span : Span} {ps : List Pattern} {ks : List TokenKind}
      (hps : inner ⟨id, span, .or ps⟩ ks) :
      AlternativeSpelled ps (.symbol .leftParen :: (ks ++ [.symbol .rightParen]))

/-- The tokens spell alternatives with bars between them. -/
inductive AlternativesSpelled : List Pattern → List TokenKind → Prop where
  | last {ps : List Pattern} {ks : List TokenKind} (hps : AlternativeSpelled inner ps ks) :
      AlternativesSpelled ps ks
  | cons {ps qs : List Pattern} {ks ks' : List TokenKind} (hps : AlternativeSpelled inner ps ks)
      (hqs : AlternativesSpelled qs ks') :
      AlternativesSpelled (ps ++ qs) (ks ++ .symbol .pipe :: ks')

/-- The tokens spell the pattern, if others spell what is within. -/
inductive Pattern.SpelledOver : Pattern → List TokenKind → Prop where
  | alone {p : Pattern} {ks : List TokenKind} (hp : p.SpelledAlone inner ks) : SpelledOver p ks
  | or {id : NodeId} {span : Span} {ps qs : List Pattern} {ks ks' : List TokenKind}
      (hps : AlternativeSpelled inner ps ks) (hqs : AlternativesSpelled inner qs ks') :
      SpelledOver ⟨id, span, .or (ps ++ qs)⟩ (ks ++ .symbol .pipe :: ks')

end

/-- The tokens spell the pattern on so many nesting levels.  Each pair of parentheses that only groups
takes a level as well. -/
def Pattern.Spelled : Nat → Pattern → List TokenKind → Prop
  | 0 => fun _ _ => False
  | n + 1 => SpelledOver (Spelled n)

/-! ## Printing -/

mutual

/-- The tokens that the pattern is printed as. -/
def Pattern.tokens : Pattern → List TokenKind
  | ⟨_, _, kind⟩ => kind.tokens

def PatternKind.tokens : PatternKind → List TokenKind
  | .wildcard => [.ident "_"]
  | .ident name => [.ident name]
  | .path path => pathTokens path
  | .literal literal => [literal.value.token]
  | .negated _ _ number => [.symbol .minus, number.value.token]
  | .tuple elems => .symbol .leftParen :: (tuplePatternTokens elems ++ [.symbol .rightParen])
  | .struct path fields =>
      pathTokens path ++ .symbol .leftBrace :: (fieldPatternsTokens fields ++ [.symbol .rightBrace])
  | .constructor path args =>
      pathTokens path ++ .symbol .leftParen :: (patternsTokens .comma args ++ [.symbol .rightParen])
  | .or alternatives => patternsTokens .pipe alternatives

def FieldPattern.tokens : FieldPattern → List TokenKind
  | ⟨name, none, _⟩ => [.ident name]
  | ⟨name, some p, _⟩ => .ident name :: .symbol .colon :: p.tokens

/-- Patterns with the symbol between them. -/
def patternsTokens (separator : Symbol) : List Pattern → List TokenKind
  | [] => []
  | p :: ps => p.tokens ++ morePatternsTokens separator ps

/-- Patterns with the symbol before them. -/
def morePatternsTokens (separator : Symbol) : List Pattern → List TokenKind
  | [] => []
  | p :: ps => .symbol separator :: (p.tokens ++ morePatternsTokens separator ps)

/-- A comma follows the first element, also where it is the only one. -/
def tuplePatternTokens : List Pattern → List TokenKind
  | [] => []
  | p :: ps => p.tokens ++ .symbol .comma :: patternsTokens .comma ps

def fieldPatternsTokens : List FieldPattern → List TokenKind
  | [] => []
  | f :: fs => f.tokens ++ moreFieldPatternsTokens fs

/-- Fields with commas before them. -/
def moreFieldPatternsTokens : List FieldPattern → List TokenKind
  | [] => []
  | f :: fs => .symbol .comma :: (f.tokens ++ moreFieldPatternsTokens fs)

end

mutual

/-- Whether the pattern can be printed: no name and no path in it starts with the underscore alone, a
path that is a pattern has two parts at least, only numbers are negated, and of alternatives, none of
which has alternatives itself, there are two at least. -/
def Pattern.isPrintable : Pattern → Bool
  | ⟨_, _, kind⟩ => kind.isPrintable

def PatternKind.isPrintable : PatternKind → Bool
  | .wildcard => true
  | .ident name => name != "_"
  | .path path => startsNamed path && decide (2 ≤ path.length)
  | .literal _ => true
  | .negated _ _ number => Parser.isNumber number.value.token
  | .tuple elems => patternsPrintable elems
  | .struct path fields => startsNamed path && fieldPatternsPrintable fields
  | .constructor path args => startsNamed path && patternsPrintable args
  | .or alternatives =>
      decide (2 ≤ alternatives.length) && alternatives.all (!·.isOr) && patternsPrintable alternatives

def FieldPattern.isPrintable : FieldPattern → Bool
  | ⟨_, none, _⟩ => true
  | ⟨_, some p, _⟩ => p.isPrintable

def patternsPrintable : List Pattern → Bool
  | [] => true
  | p :: ps => p.isPrintable && patternsPrintable ps

def fieldPatternsPrintable : List FieldPattern → Bool
  | [] => true
  | f :: fs => f.isPrintable && fieldPatternsPrintable fs

end

mutual

/-- On how many nesting levels the pattern stands.  Alternatives stand on one level with the pattern
that they belong to, all other parts of a pattern one level further down. -/
def Pattern.levels : Pattern → Nat
  | ⟨_, _, kind⟩ => kind.levels

def PatternKind.levels : PatternKind → Nat
  | .tuple elems => levelsOfPatterns elems + 1
  | .struct _ fields => levelsOfFieldPatterns fields + 1
  | .constructor _ args => levelsOfPatterns args + 1
  | .or alternatives => levelsOfPatterns alternatives
  | .wildcard | .ident _ | .path _ | .literal _ | .negated .. => 1

def FieldPattern.levels : FieldPattern → Nat
  | ⟨_, none, _⟩ => 0
  | ⟨_, some p, _⟩ => p.levels

def levelsOfPatterns : List Pattern → Nat
  | [] => 0
  | p :: ps => max p.levels (levelsOfPatterns ps)

def levelsOfFieldPatterns : List FieldPattern → Nat
  | [] => 0
  | f :: fs => max f.levels (levelsOfFieldPatterns fs)

end

@[simp] theorem patternsPrintable_iff :
    patternsPrintable ps = true ↔ ∀ p ∈ ps, p.isPrintable = true := by
  induction ps with
  | nil => simp [patternsPrintable]
  | cons p ps ih => simp [patternsPrintable, ih]

@[simp] theorem fieldPatternsPrintable_iff :
    fieldPatternsPrintable fs = true ↔ ∀ f ∈ fs, f.isPrintable = true := by
  induction fs with
  | nil => simp [fieldPatternsPrintable]
  | cons f fs ih => simp [fieldPatternsPrintable, ih]

@[simp] theorem levelsOfPatterns_le_iff : levelsOfPatterns ps ≤ n ↔ ∀ p ∈ ps, p.levels ≤ n := by
  induction ps with
  | nil => simp [levelsOfPatterns]
  | cons p ps ih => simp [levelsOfPatterns, Nat.max_le, ih]

@[simp] theorem levelsOfFieldPatterns_le_iff :
    levelsOfFieldPatterns fs ≤ n ↔ ∀ f ∈ fs, f.levels ≤ n := by
  induction fs with
  | nil => simp [levelsOfFieldPatterns]
  | cons f fs ih => simp [levelsOfFieldPatterns, Nat.max_le, ih]

/-! ## What is printed is a spelling -/

section

variable {inner : Pattern → List TokenKind → Prop}

theorem CommaSeparated.of_patternsTokens (hps : ∀ p ∈ ps, inner p p.tokens) :
    CommaSeparated inner ps (patternsTokens .comma ps) := by
  cases ps with
  | nil => exact .nil
  | cons p ps =>
    rw [patternsTokens]
    induction ps generalizing p with
    | nil =>
      rw [morePatternsTokens, List.append_nil]
      exact .last (hps p List.mem_cons_self)
    | cons q ps ih =>
      have hp := hps p List.mem_cons_self
      exact .cons hp (ih q fun r hr => hps r (List.mem_cons_of_mem p hr))

theorem CommaSeparated.of_fieldPatternsTokens (hfs : ∀ f ∈ fs, f.Spelled inner f.tokens) :
    CommaSeparated (FieldPattern.Spelled inner) fs (fieldPatternsTokens fs) := by
  cases fs with
  | nil => exact .nil
  | cons f fs =>
    rw [fieldPatternsTokens]
    induction fs generalizing f with
    | nil =>
      rw [moreFieldPatternsTokens, List.append_nil]
      exact .last (hfs f List.mem_cons_self)
    | cons g fs ih =>
      have hf := hfs f List.mem_cons_self
      exact .cons hf (ih g fun f' hf' => hfs f' (List.mem_cons_of_mem f hf'))

/-- Alternatives that are not grouped. -/
theorem AlternativesSpelled.of_tokens (hps : ∀ q ∈ p :: ps, q.SpelledAlone inner q.tokens)
    (hor : ∀ q ∈ p :: ps, q.isOr = false) :
    AlternativesSpelled inner (p :: ps) (patternsTokens .pipe (p :: ps)) := by
  have hp : AlternativeSpelled inner [p] p.tokens :=
    .one (hps p List.mem_cons_self) (hor p List.mem_cons_self)
  rw [patternsTokens]
  induction ps generalizing p with
  | nil =>
    rw [morePatternsTokens, List.append_nil]
    exact .last hp
  | cons q ps ih =>
    have hps' : ∀ r ∈ q :: ps, r.SpelledAlone inner r.tokens :=
      fun r hr => hps r (List.mem_cons_of_mem p hr)
    have hor' : ∀ r ∈ q :: ps, r.isOr = false := fun r hr => hor r (List.mem_cons_of_mem p hr)
    exact .cons hp (ih hps' hor' (.one (hps' q List.mem_cons_self) (hor' q List.mem_cons_self)))

theorem FieldPattern.spelled_tokens (hf : f.isPrintable = true) (hn : f.levels ≤ n)
    (h : ∀ p : Pattern, p.isPrintable = true → p.levels ≤ n → inner p p.tokens) :
    f.Spelled inner f.tokens := by
  obtain ⟨name, pattern, span⟩ := f
  cases pattern with
  | none => exact .short
  | some p => exact .long (h p hf hn)

/-- A pattern that has no alternatives itself. -/
theorem PatternKind.spelled_tokens {kind : PatternKind} (hkind : kind.isPrintable = true)
    (hor : ∀ alternatives, kind ≠ .or alternatives) (hn : kind.levels ≤ n + 1)
    (h : ∀ p : Pattern, p.isPrintable = true → p.levels ≤ n → inner p p.tokens) :
    kind.Spelled inner kind.tokens := by
  have hpatterns (ps : List Pattern) (hps : patternsPrintable ps = true)
      (hlevels : levelsOfPatterns ps + 1 ≤ n + 1) : ∀ p ∈ ps, inner p p.tokens := by
    intro p hp
    exact h p (patternsPrintable_iff.1 hps p hp) (levelsOfPatterns_le_iff.1 (by omega) p hp)
  cases kind with
  | wildcard => exact .wildcard
  | ident name => exact .ident (by simpa [isPrintable] using hkind)
  | path path =>
    obtain ⟨hpath, hlong⟩ := Bool.and_eq_true_iff.1 hkind
    exact .path hpath (of_decide_eq_true hlong)
  | literal literal => exact .literal
  | negated id span number => exact .negated hkind
  | tuple elems =>
    have helems := hpatterns elems hkind hn
    cases elems with
    | nil => exact .unit
    | cons p ps =>
      obtain ⟨hp, hps⟩ := List.forall_mem_cons.1 helems
      exact .tuple hp (.of_patternsTokens hps)
  | struct path fields =>
    obtain ⟨hpath, hfields⟩ := Bool.and_eq_true_iff.1 hkind
    have hlevels : levelsOfFieldPatterns fields + 1 ≤ n + 1 := hn
    refine .struct hpath (.of_fieldPatternsTokens fun f hf => ?_)
    exact FieldPattern.spelled_tokens (fieldPatternsPrintable_iff.1 hfields f hf)
      (levelsOfFieldPatterns_le_iff.1 (by omega) f hf) h
  | constructor path args =>
    obtain ⟨hpath, hargs⟩ := Bool.and_eq_true_iff.1 hkind
    exact .constructor hpath (.of_patternsTokens (hpatterns args hargs hn))
  | or alternatives => exact absurd rfl (hor alternatives)

theorem Pattern.kind_ne_or (h : p.isOr = false) (alternatives : List Pattern) :
    p.kind ≠ .or alternatives := by
  intro hkind
  rw [isOr, hkind] at h
  cases h

theorem Pattern.spelledAlone_tokens (hp : p.isPrintable = true) (hor : p.isOr = false)
    (hn : p.levels ≤ n + 1)
    (h : ∀ q : Pattern, q.isPrintable = true → q.levels ≤ n → inner q q.tokens) :
    p.SpelledAlone inner p.tokens := by
  obtain ⟨id, span, kind⟩ := p
  exact .plain (PatternKind.spelled_tokens hp (kind_ne_or hor) hn h)

end

theorem Pattern.levels_pos (hor : p.isOr = false) : 0 < p.levels := by
  obtain ⟨id, span, kind⟩ := p
  cases kind with
  | or alternatives => cases hor
  | tuple elems => exact Nat.succ_pos _
  | struct path fields => exact Nat.succ_pos _
  | constructor path args => exact Nat.succ_pos _
  | _ => exact Nat.one_pos

/-- The parts of alternatives that can be printed. -/
theorem PatternKind.exists_cons_of_isPrintable (h : (PatternKind.or ps).isPrintable = true) :
    ∃ p q qs, ps = p :: q :: qs ∧ (∀ r ∈ ps, r.isOr = false) ∧ ∀ r ∈ ps, r.isPrintable = true := by
  simp only [isPrintable, Bool.and_eq_true, decide_eq_true_eq, List.all_eq_true, Bool.not_eq_true',
    patternsPrintable_iff] at h
  obtain ⟨⟨hlength, hor⟩, hall⟩ := h
  match ps with
  | [] => simp at hlength
  | [_] => simp at hlength
  | p :: q :: qs => exact ⟨p, q, qs, rfl, hor, hall⟩

/-- The tokens that a pattern is printed as spell it, on as many levels as it has. -/
theorem Pattern.spelled_tokens (hp : p.isPrintable = true) (hn : p.levels ≤ n) :
    p.Spelled n p.tokens := by
  induction n generalizing p with
  | zero =>
    -- no pattern stands on no level
    cases hor : p.isOr with
    | false =>
      have hpos := Pattern.levels_pos hor
      omega
    | true =>
      obtain ⟨id, span, kind⟩ := p
      cases kind with
      | or alternatives =>
        obtain ⟨q, _, _, rfl, hor, -⟩ := PatternKind.exists_cons_of_isPrintable hp
        have hpos := Pattern.levels_pos (hor q List.mem_cons_self)
        have hle : q.levels ≤ 0 := levelsOfPatterns_le_iff.1 hn q List.mem_cons_self
        omega
      | _ => cases hor
  | succ n ih =>
    show SpelledOver (Spelled n) p p.tokens
    cases hor : p.isOr with
    | false => exact .alone (Pattern.spelledAlone_tokens hp hor hn fun q => ih)
    | true =>
      obtain ⟨id, span, kind⟩ := p
      cases kind with
      | or alternatives =>
        obtain ⟨q, r, rs, rfl, hone, hprintable⟩ := PatternKind.exists_cons_of_isPrintable hp
        have halone : ∀ t ∈ q :: r :: rs, t.SpelledAlone (Spelled n) t.tokens := fun t ht =>
          Pattern.spelledAlone_tokens (hprintable t ht) (hone t ht)
            (levelsOfPatterns_le_iff.1 hn t ht) fun u => ih
        have hq : AlternativeSpelled (Spelled n) [q] q.tokens :=
          .one (halone q List.mem_cons_self) (hone q List.mem_cons_self)
        have hrs : AlternativesSpelled (Spelled n) (r :: rs) (patternsTokens .pipe (r :: rs)) :=
          .of_tokens (fun t ht => halone t (List.mem_cons_of_mem q ht))
            fun t ht => hone t (List.mem_cons_of_mem q ht)
        exact .or hq hrs
      | _ => cases hor

end ActorFrontend

import ActorFrontend.Proofs.Alike.Items
import ActorFrontend.Proofs.Defects.Flat

/-!
# Where the reading resumes

Behind a part that failed before the semicolon of a flat run the reading resumes directly behind that
semicolon, unless a keyword that starts a part stands in the way.  The first token of the run may be
such a keyword: the part that it starts has passed over it before it fails.
-/

namespace ActorFrontend

open ActorFrontend.Parser

variable {α β : Type} {g : Rules} {setting : Setting} {s : State} {semi : Lexeme}
  {ts rest : List Lexeme}

/-! ## Passing over what is left -/

/-- No token is a keyword of the kind that recovery stops at. -/
def Unkeyed (starts : Keyword → Bool) (ts : List Lexeme) : Prop :=
  ∀ lexeme ∈ ts, ∀ k, lexeme.token.kind = .keyword k → starts k = false

/-- The number of tokens to pass over in a flat run up to and including the semicolon behind it. -/
def ResumesBehind (starts : Keyword → Bool) (recovery : Recovery) : Prop :=
  ∀ ts semi rest, Flat ts → Unkeyed starts ts → semi.token.kind = .symbol .semicolon →
    recovery.resume (ts ++ semi :: rest) = ts.length + 1

theorem Recovery.statements_resumesBehind : ResumesBehind Keyword.startsStatement .statements := by
  intro ts semi rest hflat hkeys hsemi
  change Recovery.toStatement 0 _ = _
  induction ts with
  | nil => simp [Recovery.toStatement, hsemi]
  | cons lexeme ts ih =>
    have ih := ih hflat.tail fun l hl => hkeys l (List.mem_cons_of_mem _ hl)
    have hhead := hflat.head
    have hkey := hkeys lexeme List.mem_cons_self
    rw [List.cons_append, List.length_cons]
    unfold TokenKind.isFlat at hhead
    unfold Recovery.toStatement
    split <;> simp_all [Recovery.depthAfter, Symbol.opens, Symbol.closes]

theorem Recovery.items_resumesBehind : ResumesBehind Keyword.startsItem .items := by
  intro ts semi rest hflat hkeys hsemi
  change Recovery.toItem 0 _ = _
  induction ts with
  | nil => simp [Recovery.toItem, hsemi]
  | cons lexeme ts ih =>
    have ih := ih hflat.tail fun l hl => hkeys l (List.mem_cons_of_mem _ hl)
    have hhead := hflat.head
    have hkey := hkeys lexeme List.mem_cons_self
    rw [List.cons_append, List.length_cons]
    unfold TokenKind.isFlat at hhead
    unfold Recovery.toItem
    split <;> simp_all [Symbol.opens, Symbol.closes]

theorem Recovery.members_resumesBehind : ResumesBehind Keyword.startsMember .members := by
  intro ts semi rest hflat hkeys hsemi
  change Recovery.toMember 0 _ = _
  induction ts with
  | nil => simp [Recovery.toMember, hsemi]
  | cons lexeme ts ih =>
    have ih := ih hflat.tail fun l hl => hkeys l (List.mem_cons_of_mem _ hl)
    have hhead := hflat.head
    have hkey := hkeys lexeme List.mem_cons_self
    rw [List.cons_append, List.length_cons]
    unfold TokenKind.isFlat at hhead
    unfold Recovery.toMember
    split <;> simp_all [Recovery.depthAfter, Symbol.opens, Symbol.closes]

/-- After an error before the semicolon of a flat run the reading resumes behind that semicolon. -/
theorem State.rest_recover_flat {starts : Keyword → Bool} {recovery : Recovery}
    (hrecovery : ResumesBehind starts recovery) {e : ParseError} {after : State}
    (hrest : after.rest = ts ++ semi :: rest) (hflat : Flat ts) (hkeys : Unkeyed starts ts)
    (hsemi : semi.token.kind = .symbol .semicolon) (hle : after.rest.length ≤ s.rest.length)
    (hrun : (after.record setting e).halted = false) :
    (s.recover recovery setting e after).rest = rest := by
  have hresume : ((after.record setting e).skip
      (recovery.resume (after.record setting e).rest)).rest = rest := by
    rw [State.rest_skip, State.rest_record, hrest, hrecovery ts semi rest hflat hkeys hsemi,
      show ts.length + 1 = (ts ++ [semi]).length by simp,
      show ts ++ semi :: rest = (ts ++ [semi]) ++ rest by simp, List.drop_left]
  unfold State.recover
  simp only [hrun, Bool.false_eq_true, if_false]
  rw [if_neg]
  · exact hresume
  · rw [hresume]
    rw [hrest] at hle
    simp only [List.length_append, List.length_cons] at hle
    omega

/-! ## Keywords that are passed over -/

/-- The same state, but for the layout before the token at hand. -/
def State.rebroken (s : State) : State :=
  match s.rest with
  | [] => s
  | lexeme :: rest =>
      { s with rest := { lexeme with afterLineBreak := !lexeme.afterLineBreak } :: rest }

namespace State

@[simp] theorem kind_rebroken (s : State) : s.rebroken.kind = s.kind := by
  unfold rebroken
  split
  · rfl
  case h_2 hrest => simp only [State.kind, hrest]

@[simp] theorem span_rebroken (setting : Setting) (s : State) :
    s.rebroken.span setting = s.span setting := by
  unfold rebroken
  split
  · rfl
  case h_2 hrest => simp only [State.span, hrest]

@[simp] theorem advance_rebroken (s : State) : s.rebroken.advance = s.advance := by
  unfold rebroken
  split
  · rfl
  case h_2 hrest => simp only [State.advance, hrest]

theorem rebroken_withDepth (s : State) (depth : Nat) :
    { s with depth }.rebroken = { s.rebroken with depth } := by
  unfold rebroken
  simp only
  split <;> rfl

end State

namespace Parser

/-- The reading does not notice whether a line break stands before the token at hand, and neither can
anyone tell from its answer: that token is gone. -/
def Overlooks (p : Parser α) (setting : Setting) (s : State) : Prop :=
  p setting s.rebroken = p setting s

theorem Overlooks.rest_suffix {loud : Bool} {p : Parser α} (h : p.Overlooks setting s)
    (hp : p.Keeps loud) (hkind : s.kind ≠ .endOfFile) :
    (p setting s).state.rest <:+ s.advance.rest := by
  cases hrest : s.rest with
  | nil =>
    unfold State.kind at hkind
    rw [hrest] at hkind
    exact absurd rfl hkind
  | cons lexeme rest =>
    have hkept := (hp setting s).rest
    have hkept' := (hp setting s.rebroken).rest
    rw [show p setting s.rebroken = p setting s from h] at hkept'
    rw [hrest] at hkept
    rw [State.rebroken, hrest] at hkept'
    rw [State.rest_advance, hrest]
    obtain heq | hsuffix := List.suffix_cons_iff.1 hkept
    · obtain heq' | hsuffix := List.suffix_cons_iff.1 hkept'
      · have hlexeme := (List.cons.inj (heq.symm.trans heq')).1
        have hbreak := congrArg Lexeme.afterLineBreak hlexeme
        simp at hbreak
      · exact hsuffix
    · exact hsuffix

namespace Overlooks

variable {k : TokenKind} {p : Parser α}

theorem bind {q : α → Parser β} (h : p.Overlooks setting s) : (p >>= q).Overlooks setting s := by
  change Parser.bind p q setting s.rebroken = Parser.bind p q setting s
  unfold Parser.bind
  rw [show p setting s.rebroken = p setting s from h]

theorem advance (q : Unit → Parser β) : (Parser.advance >>= q).Overlooks setting s := by
  rw [Overlooks, advance_bind, advance_bind, State.advance_rebroken]

theorem start {q : Nat → Parser β} (h : ∀ n, (q n).Overlooks setting s) :
    (Parser.start >>= q).Overlooks setting s := by
  rw [Overlooks, start_bind, start_bind, State.span_rebroken]
  exact h _

theorem kind {q : TokenKind → Parser β} (hkind : s.kind = k) (h : (q k).Overlooks setting s) :
    (Parser.kind >>= q).Overlooks setting s := by
  rw [Overlooks, kind_bind, kind_bind, State.kind_rebroken, hkind]
  exact h

theorem test (test : TokenKind → Bool) {q : Bool → Parser β} (hkind : s.kind = k)
    (h : (q (test k)).Overlooks setting s) :
    (query (fun s => test s.kind) >>= q).Overlooks setting s := by
  rw [Overlooks, query_bind, query_bind, State.kind_rebroken, hkind]
  exact h

/-- The token at hand is passed over if the test holds of it. -/
theorem acceptIf {test : TokenKind → Bool} {q : Bool → Parser β} (hkind : s.kind = k)
    (h : test k = true ∨ (q false).Overlooks setting s) :
    (Parser.acceptIf test >>= q).Overlooks setting s := by
  by_cases htest : test k = true
  · refine bind ?_
    rw [Overlooks, acceptIf_eq, acceptIf_eq, State.kind_rebroken, hkind, if_pos htest, if_pos htest,
      State.advance_rebroken]
  · have hfalse (s : State) (hkind : s.kind = k) : Parser.acceptIf test setting s = .ok false s := by
      rw [acceptIf_eq, hkind, if_neg htest]
    rw [Overlooks, bind_ok (hfalse s hkind),
      bind_ok (hfalse s.rebroken (s.kind_rebroken.trans hkind))]
    exact h.resolve_left htest

theorem expectKeyword {keyword : Keyword} {q : Unit → Parser β}
    (hkind : s.kind = .keyword keyword) :
    (Parser.expectKeyword keyword >>= q).Overlooks setting s :=
  bind (acceptIf hkind (.inl (by simp [TokenKind.isKeyword])))

theorem nested (hdepth : s.depth < setting.limits.maxDepth)
    (h : p.Overlooks setting { s with depth := s.depth + 1 }) :
    (nested p).Overlooks setting s := by
  have hdepth' : s.rebroken.depth = s.depth := by
    unfold State.rebroken
    split <;> rfl
  unfold Overlooks at h ⊢
  rw [State.rebroken_withDepth] at h
  unfold Parser.nested
  rw [hdepth', if_neg (Nat.not_le.2 hdepth), if_neg (Nat.not_le.2 hdepth), h]

end Overlooks

/-- A statement has passed over the keyword that starts it. -/
theorem overlooks_stmt {levels : Nat} {k : Keyword} (hk : k.startsStatement = true)
    (hkind : s.kind = .keyword k) (hdepth : s.depth < setting.limits.maxDepth) :
    (stmt (.within (levels + 1))).Overlooks setting s := by
  have hlabel (s : State) (hkind : s.kind = .keyword k) : loopLabel setting s = .ok none s := by
    rw [loopLabel, label?, bind_ok (show _ = Reply.ok none s from ?_)]
    · rfl
    · rw [kind_bind, hkind]
      rfl
  have hblockLike (hstarts : ∀ s : State, s.kind = .keyword k → startsBlockLike s = true)
      (h : (operand (.within levels)).Overlooks setting { s with depth := s.depth + 1 }) :
      (query startsBlockLike >>= fun starts =>
        if starts then blockLikeStmt (.within (levels + 1))
        else exprStmt (.within (levels + 1))).Overlooks setting s := by
    rw [Overlooks, query_bind, query_bind, hstarts s hkind,
      hstarts s.rebroken (s.kind_rebroken.trans hkind)]
    exact Overlooks.bind (.nested hdepth h)
  refine .start fun n => ?_
  rw [Overlooks, bind_ok (hlabel s hkind),
    bind_ok (hlabel s.rebroken ((State.kind_rebroken s).trans hkind))]
  refine Overlooks.bind (.kind hkind ?_)
  cases k with
  | letKw => exact .expectKeyword hkind
  | varKw => exact .expectKeyword hkind
  | forKw => exact .expectKeyword hkind
  | whileKw => exact .advance _
  | loopKw => exact .advance _
  | breakKw => exact .advance _
  | continueKw => exact .advance _
  | returnKw => exact .advance _
  | ifKw =>
    refine hblockLike (fun s hkind => by rw [startsBlockLike, hkind]) (.kind hkind ?_)
    exact .bind (.start fun _ => .expectKeyword hkind)
  | matchKw =>
    refine hblockLike (fun s hkind => by rw [startsBlockLike, hkind]) (.kind hkind ?_)
    exact .start fun _ => .bind (.expectKeyword hkind)
  | _ => cases hk

theorem overlooks_fnDecl {k : Keyword} {rule : BodyRule} (hk : k = .fnKw ∨ k = .genKw ∨ k = .asyncKw)
    (hkind : s.kind = .keyword k) : (fnDecl g rule).Overlooks setting s := by
  refine .start fun n => ?_
  obtain rfl | rfl | rfl := hk
  · refine .acceptIf hkind (.inr (.acceptIf hkind (.inr (.expectKeyword hkind))))
  · exact .acceptIf hkind (.inr (.acceptIf hkind (.inl rfl)))
  · exact .acceptIf hkind (.inl rfl)

/-! ## Members -/

/-- A type or a method, in a trait or an implementation. -/
theorem overlooks_typeOrMethod {k : Keyword} {rule : BodyRule} {type : Parser α} {make : FnDecl → α}
    (hk : k = .fnKw ∨ k = .genKw ∨ k = .asyncKw ∨ k = .typeKw) (hkind : s.kind = .keyword k)
    (htype : type.Overlooks setting s) :
    (do if ← seesKeyword .typeKw then type else pure (make (← fnDecl g rule)) :
      Parser α).Overlooks setting s := by
  refine .test (·.isKeyword .typeKw) hkind ?_
  obtain rfl | rfl | rfl | rfl := hk
  · exact .bind (overlooks_fnDecl (.inl rfl) hkind)
  · exact .bind (overlooks_fnDecl (.inr (.inl rfl)) hkind)
  · exact .bind (overlooks_fnDecl (.inr (.inr rfl)) hkind)
  · exact htype

theorem overlooks_traitItem {k : Keyword}
    (hk : k = .fnKw ∨ k = .genKw ∨ k = .asyncKw ∨ k = .typeKw) (hkind : s.kind = .keyword k) :
    (traitItem g).Overlooks setting s :=
  overlooks_typeOrMethod hk hkind (.start fun _ => .advance _)

theorem overlooks_implItem {k : Keyword}
    (hk : k = .fnKw ∨ k = .genKw ∨ k = .asyncKw ∨ k = .typeKw) (hkind : s.kind = .keyword k) :
    (implItem g).Overlooks setting s :=
  overlooks_typeOrMethod hk hkind (.start fun _ => .advance _)

theorem overlooks_externFn (hkind : s.kind = .keyword .fnKw) : (externFn g).Overlooks setting s :=
  .start fun _ => .expectKeyword hkind

theorem overlooks_actorMember {k : Keyword} (hk : k.startsMember = true) (htype : k ≠ .typeKw)
    (hkind : s.kind = .keyword k) : (actorMember g).Overlooks setting s := by
  refine .kind hkind ?_
  have hfield : (actorField g).Overlooks setting s :=
    .start fun _ => .test (·.isKeyword .varKw) hkind (.advance _)
  cases k with
  | letKw => exact hfield
  | varKw => exact hfield
  | mailboxKw => exact .bind (.start fun _ => .expectKeyword hkind)
  | fnKw => exact .bind (overlooks_fnDecl (.inl rfl) hkind)
  | genKw => exact .bind (overlooks_fnDecl (.inr (.inl rfl)) hkind)
  | asyncKw => exact .bind (overlooks_fnDecl (.inr (.inr rfl)) hkind)
  | typeKw => exact absurd rfl htype
  | _ => cases hk

/-! ## Declarations -/

/-- A declaration has passed over the keyword that starts it. -/
theorem overlooks_item {k : Keyword} (hk : k.startsItem = true) (hkind : s.kind = .keyword k) :
    (item g).Overlooks setting s := by
  refine .start fun n => ?_
  by_cases hpub : k = .pubKw
  · subst hpub
    exact .bind (.acceptIf hkind (.inl rfl))
  have hvisibility (s : State) (hkind : s.kind = .keyword k) :
      visibility setting s = .ok .privateVis s := by
    have haccept : acceptKeyword .pubKw setting s = .ok false s := by
      rw [acceptKeyword, acceptIf_eq, hkind, if_neg (by simpa [TokenKind.isKeyword] using hpub)]
    rw [visibility, bind_ok haccept]
    rfl
  rw [Overlooks, bind_ok (hvisibility s hkind),
    bind_ok (hvisibility s.rebroken (s.kind_rebroken.trans hkind))]
  refine Overlooks.bind (.kind hkind ?_)
  cases k with
  | importKw => exact .bind (.expectKeyword hkind)
  | constKw => exact .bind (.expectKeyword hkind)
  | typeKw => exact .expectKeyword hkind
  | structKw => exact .bind (.advance _)
  | enumKw => exact .bind (.expectKeyword hkind)
  | wireKw => exact .bind (.expectKeyword hkind)
  | traitKw => exact .bind (.expectKeyword hkind)
  | implKw => exact .bind (.expectKeyword hkind)
  | fnKw => exact .bind (overlooks_fnDecl (.inl rfl) hkind)
  | genKw => exact .bind (overlooks_fnDecl (.inr (.inl rfl)) hkind)
  | asyncKw => exact .bind (overlooks_fnDecl (.inr (.inr rfl)) hkind)
  | externKw => exact .bind (.expectKeyword hkind)
  | actorKw => exact .bind (.expectKeyword hkind)
  | supervisorKw => exact .bind (.expectKeyword hkind)
  | pubKw => exact absurd rfl hpub
  | _ => cases hk

end Parser

end ActorFrontend

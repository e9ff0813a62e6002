import ActorFrontend.Proofs.Motion.Basic

/-!
# Parts of readings that move
-/

namespace ActorFrontend.Parser.Moves

variable {α β γ σ : Type} {m : Motion} {f : α → α} {h : β → β}

theorem value {a a' : α} (ha : f a = a') : Moves m f (pure a : Parser α) (pure a') := by
  subst ha
  exact fun _ _ => rfl

theorem bind {p p' : Parser α} {q q' : α → Parser β} (hp : Moves m f p p')
    (hq : ∀ a, Moves m h (q a) (q' (f a))) : Moves m h (p >>= q) (p' >>= q') := by
  intro setting s
  change Parser.bind p' q' _ _ = (Parser.bind p q setting s).move m h
  unfold Parser.bind
  rw [hp setting s]
  cases p setting s with
  | ok a after => exact hq a setting after
  | fail e after => rfl

/-- What the first part answers with has no place. -/
theorem pass {p : Parser α} {q q' : α → Parser β} (hp : Moves m id p p)
    (hq : ∀ a, Moves m h (q a) (q' a)) : Moves m h (p >>= q) (p >>= q') := .bind hp hq

theorem looked {look : State → α} (hlook : ∀ s, look (s.move m) = look s) :
    Moves m id (Parser.query look) (Parser.query look) := by
  intro setting s
  rw [Parser.query, hlook]
  rfl

theorem query {look : State → α} {q q' : α → Parser β} (hlook : ∀ s, look (s.move m) = look s)
    (hq : ∀ a, Moves m h (q a) (q' a)) :
    Moves m h (Parser.query look >>= q) (Parser.query look >>= q') := .pass (looked hlook) hq

theorem start {q q' : Nat → Parser β} (hq : ∀ n, Moves m h (q n) (q' (n + m.bytes))) :
    Moves m h (Parser.start >>= q) (Parser.start >>= q') := by
  refine .bind (fun setting s => ?_) hq
  rw [Parser.start, State.span_move]
  rfl

theorem span {q q' : Span → Parser β} (hq : ∀ span, Moves m h (q span) (q' (span.shift m.bytes))) :
    Moves m h (Parser.span >>= q) (Parser.span >>= q') := by
  refine .bind (fun setting s => ?_) hq
  rw [Parser.span, State.span_move]
  rfl

/-- The kind of the token at hand; strings are kinds that move. -/
theorem kind {q q' : TokenKind → Parser β}
    (hstring : ∀ fragments, Moves m h (q (.interpolated fragments))
      (q' (.interpolated (fragments.map (Fragment.shift m.bytes)))))
    (hplain : ∀ k, (∀ fragments, k ≠ .interpolated fragments) → Moves m h (q k) (q' k)) :
    Moves m h (Parser.kind >>= q) (Parser.kind >>= q') := by
  have hkind : Moves m (TokenKind.shift m.bytes) Parser.kind Parser.kind := by
    intro setting s
    rw [Parser.kind, Parser.query, State.kind_move]
    rfl
  refine .bind hkind fun k => ?_
  cases k with
  | interpolated fragments => simpa [TokenKind.shift] using hstring fragments
  | _ => exact hplain _ (by simp)

/-- The kind of the token at hand, where strings are not told apart. -/
theorem plainKind {q : TokenKind → Parser β}
    (hstring : ∀ fragments fragments', q (.interpolated fragments) = q (.interpolated fragments'))
    (hplain : ∀ k, Moves m h (q k) (q k)) : Moves m h (Parser.kind >>= q) (Parser.kind >>= q) := by
  refine .kind (fun fragments => ?_) fun k _ => hplain k
  rw [hstring (fragments.map _) fragments]
  exact hplain _

theorem spanFrom {start : Nat} {q q' : Span → Parser β}
    (hq : ∀ span, Moves m h (q span) (q' (span.shift m.bytes))) :
    Moves m h (Parser.spanFrom start >>= q) (Parser.spanFrom (start + m.bytes) >>= q') := by
  refine .bind (fun setting s => ?_) hq
  have hstop : max (s.previousEnd + m.bytes) (start + m.bytes) =
      max s.previousEnd start + m.bytes := by omega
  rw [Parser.spanFrom, Parser.query, State.move, hstop]
  rfl

theorem freshId {q q' : NodeId → Parser β} (hq : ∀ id, Moves m h (q id) (q' (id + m.ids))) :
    Moves m h (Parser.freshId >>= q) (Parser.freshId >>= q') := by
  refine .bind (fun setting s => ?_) hq
  have hnext : s.nextId + m.ids + 1 = s.nextId + 1 + m.ids := Nat.add_right_comm _ _ _
  rw [Parser.freshId, State.move, hnext]
  rfl

theorem node {start : Nat} {make make' : NodeId → Span → α}
    (hmake : ∀ id span, f (make id span) = make' (id + m.ids) (span.shift m.bytes)) :
    Moves m f (Parser.node start make) (Parser.node (start + m.bytes) make') :=
  .freshId fun id => .spanFrom fun span => .value (hmake id span)

theorem advance {q q' : Unit → Parser β} (hq : Moves m h (q ()) (q' ())) :
    Moves m h (Parser.advance >>= q) (Parser.advance >>= q') := by
  refine .pass (fun setting s => ?_) fun _ => hq
  rw [Parser.advance, Parser.update, State.advance_move]
  rfl

theorem expected (wanted : Expected) :
    Moves m f (Parser.expected wanted : Parser α) (Parser.expected wanted) := by
  intro setting s
  rw [Parser.expected, State.expectedError_move]
  rfl

theorem tooDeep : Moves m f (Parser.tooDeep : Parser α) Parser.tooDeep := by
  intro setting s
  rw [Parser.tooDeep, State.span_move]
  rfl

theorem record (clause : Clause) (span : Span) :
    Moves m id (Parser.record ⟨.duplicate clause, span⟩)
      (Parser.record ⟨.duplicate clause, span.shift m.bytes⟩) := by
  intro setting s
  change Reply.ok () ((s.move m).record _ (ParseError.shift m.bytes ⟨.duplicate clause, span⟩)) = _
  rw [State.record_move]
  rfl

/-! ### Single tokens -/

section

variable {test : TokenKind → Bool} {value? : TokenKind → Option α}

theorem found (htest : ∀ fragments fragments',
      test (.interpolated fragments) = test (.interpolated fragments')) :
    Moves m id (Parser.acceptIf test) (Parser.acceptIf test) := by
  refine .query (fun s => ?_) fun found => ?_
  · rw [State.kind_move, TokenKind.apply_shift htest]
  · cases found with
    | true => exact .advance (.value rfl)
    | false => exact .value rfl

theorem acceptIf {q q' : Bool → Parser β} (htest : ∀ fragments fragments',
      test (.interpolated fragments) = test (.interpolated fragments'))
    (hq : ∀ found, Moves m h (q found) (q' found)) :
    Moves m h (Parser.acceptIf test >>= q) (Parser.acceptIf test >>= q') := .pass (found htest) hq

theorem accept {symbol : Symbol} {q q' : Bool → Parser β}
    (hq : ∀ found, Moves m h (q found) (q' found)) :
    Moves m h (Parser.accept symbol >>= q) (Parser.accept symbol >>= q') :=
  .acceptIf (fun _ _ => rfl) hq

theorem acceptKeyword {keyword : Keyword} {q q' : Bool → Parser β}
    (hq : ∀ found, Moves m h (q found) (q' found)) :
    Moves m h (Parser.acceptKeyword keyword >>= q) (Parser.acceptKeyword keyword >>= q') :=
  .acceptIf (fun _ _ => rfl) hq

theorem acceptWord {word : String} {q q' : Bool → Parser β}
    (hq : ∀ found, Moves m h (q found) (q' found)) :
    Moves m h (Parser.acceptWord word >>= q) (Parser.acceptWord word >>= q') :=
  .acceptIf (fun _ _ => rfl) hq

theorem require {wanted : Expected} {q q' : Unit → Parser β} (htest : ∀ fragments fragments',
      test (.interpolated fragments) = test (.interpolated fragments'))
    (hq : Moves m h (q ()) (q' ())) :
    Moves m h (Parser.require test wanted >>= q) (Parser.require test wanted >>= q') := by
  refine .pass (.acceptIf htest fun found => ?_) fun _ => hq
  cases found with
  | true => exact .value rfl
  | false => exact .expected wanted

theorem expect {symbol : Symbol} {q q' : Unit → Parser β} (hq : Moves m h (q ()) (q' ())) :
    Moves m h (Parser.expect symbol >>= q) (Parser.expect symbol >>= q') :=
  .require (fun _ _ => rfl) hq

theorem expectKeyword {keyword : Keyword} {q q' : Unit → Parser β}
    (hq : Moves m h (q ()) (q' ())) :
    Moves m h (Parser.expectKeyword keyword >>= q) (Parser.expectKeyword keyword >>= q') :=
  .require (fun _ _ => rfl) hq

theorem expectWord {word : String} {q q' : Unit → Parser β} (hq : Moves m h (q ()) (q' ())) :
    Moves m h (Parser.expectWord word >>= q) (Parser.expectWord word >>= q') :=
  .require (fun _ _ => rfl) hq

theorem read {wanted : Expected} (hvalue : ∀ fragments, value? (.interpolated fragments) = none) :
    Moves m id (Parser.valueOf value? wanted) (Parser.valueOf value? wanted) := by
  refine .plainKind (fun fragments fragments' => ?_) fun k => ?_
  · rw [hvalue, hvalue]
  · cases value? k with
    | some a => exact .advance (.value rfl)
    | none => exact .expected wanted

theorem valueOf {wanted : Expected} {q q' : α → Parser β}
    (hvalue : ∀ fragments, value? (.interpolated fragments) = none)
    (hq : ∀ a, Moves m h (q a) (q' a)) :
    Moves m h (Parser.valueOf value? wanted >>= q) (Parser.valueOf value? wanted >>= q') :=
  .pass (read hvalue) hq

theorem name {q q' : String → Parser β} (hq : ∀ a, Moves m h (q a) (q' a)) :
    Moves m h (Parser.name >>= q) (Parser.name >>= q') := .valueOf (fun _ => rfl) hq

end

theorem sees {symbol : Symbol} {q q' : Bool → Parser β} (hq : ∀ found, Moves m h (q found) (q' found)) :
    Moves m h (Parser.sees symbol >>= q) (Parser.sees symbol >>= q') :=
  .query (fun s => by simp) hq

theorem seesKeyword {keyword : Keyword} {q q' : Bool → Parser β}
    (hq : ∀ found, Moves m h (q found) (q' found)) :
    Moves m h (Parser.seesKeyword keyword >>= q) (Parser.seesKeyword keyword >>= q') :=
  .query (fun s => by simp) hq

theorem semicolon {q q' : Unit → Parser β} (hq : Moves m h (q ()) (q' ())) :
    Moves m h (Parser.semicolon >>= q) (Parser.semicolon >>= q') := by
  refine .pass (fun setting s => ?_) fun _ => hq
  unfold Parser.semicolon
  simp only [State.kind_move, TokenKind.isSymbol_shift, State.afterLineBreak_move, State.atEnd_move]
  split
  · rw [State.advance_move]
    rfl
  · split
    · have hrecord := @State.record_move m setting s
        ⟨.missingSemicolon s.kind, .empty s.previousEnd⟩
      exact congrArg (Reply.ok ()) hrecord
    · rw [State.expectedError_move]
      rfl

/-! ### Contexts, levels and trials -/

variable {p p' : Parser α}

theorem withContext {context : Context} (hp : Moves m f p p') :
    Moves m f (Parser.withContext context p) (Parser.withContext context p') := by
  intro setting s
  have hinner := hp setting { s with context }
  unfold Parser.withContext
  change (p' (setting.move m) (State.move m { s with context })).mapState _ = _
  rw [hinner]
  cases p setting { s with context } <;> rfl

theorem enclosed (hp : Moves m f p p') : Moves m f (Parser.enclosed p) (Parser.enclosed p') :=
  .withContext hp

theorem nested (hp : Moves m f p p') : Moves m f (Parser.nested p) (Parser.nested p') := by
  intro setting s
  have hinner := hp setting { s with depth := s.depth + 1 }
  unfold Parser.nested
  rw [Setting.limits_move, State.depth_move]
  split
  · exact tooDeep setting s
  · change (p' (setting.move m) (State.move m { s with depth := s.depth + 1 })).mapState _ = _
    rw [hinner]
    cases p setting { s with depth := s.depth + 1 } <;> rfl

theorem attempt (hp : Moves m f p p') :
    Moves m (Option.map f) (Parser.attempt p) (Parser.attempt p') := by
  intro setting s
  unfold Parser.attempt
  rw [hp setting s]
  cases p setting s with
  | ok a after => rfl
  | fail e after => simp [Reply.move, State.move]

/-! ### Repetition -/

theorem loop {step step' : σ → Parser (Bool × σ)} {f : σ → σ}
    (hstep : ∀ a, Moves m (Prod.map id f) (step a) (step' (f a))) (a : σ) :
    Moves m f (Parser.loop step a) (Parser.loop step' (f a)) := by
  have hrepeat (fuel : List Lexeme) (a : σ) : Moves m f (repeatAlong step fuel a)
      (repeatAlong step' (fuel.map (Lexeme.shift m.bytes)) (f a)) := by
    induction fuel generalizing a with
    | nil => exact .bind (hstep a) fun r => .value rfl
    | cons lexeme fuel ih =>
      refine .bind (hstep a) fun r => ?_
      obtain ⟨again, b⟩ := r
      cases again with
      | true => exact ih b
      | false => exact .value rfl
  exact fun setting s => hrepeat s.rest a setting s

theorem collect {step step' : Parser (Bool × List α)}
    (hstep : Moves m (Prod.map id (List.map f)) step step') :
    Moves m (List.map f) (Parser.collect step) (Parser.collect step') := by
  have hturns : Moves m (List.map (List.map f)) (Parser.loop (collectTurn step) [])
      (Parser.loop (collectTurn step') []) := by
    refine .loop (fun turns => ?_) []
    refine Moves.bind hstep fun r => ?_
    exact .value rfl
  refine .bind hturns fun turns => .value ?_
  rw [List.map_flatten, List.map_reverse]

theorem commaList {close : Symbol} {elem elem' : Parser α} (helem : Moves m f elem elem') :
    Moves m (List.map f) (Parser.commaList close elem) (Parser.commaList close elem') := by
  refine .bind (.collect (.sees fun closed => ?_)) fun elems => .expect (.value rfl)
  split
  · exact .value rfl
  · exact .bind helem fun a => .accept fun again => .value rfl

theorem commaTail {close : Symbol} {elem elem' : Parser α} (helem : Moves m f elem elem') :
    Moves m (List.map f) (Parser.commaTail close elem) (Parser.commaTail close elem') := by
  refine .bind (.collect (.accept fun found => ?_)) fun elems => .expect (.value rfl)
  split
  · refine .sees fun closed => ?_
    split
    · exact .value rfl
    · exact .bind helem fun a => .value rfl
  · exact .value rfl

theorem optional {announced : Parser Bool} {elem elem' : Parser α}
    (hannounced : Moves m id announced announced) (helem : Moves m f elem elem') :
    Moves m (Option.map f) (Parser.optional announced elem) (Parser.optional announced elem') := by
  refine .pass hannounced fun found => ?_
  split
  · exact .bind helem fun a => .value rfl
  · exact .value rfl

theorem listIf {announced : Parser Bool} {elems elems' : Parser (List α)}
    (hannounced : Moves m id announced announced) (helems : Moves m (List.map f) elems elems') :
    Moves m (List.map f) (Parser.listIf announced elems) (Parser.listIf announced elems') := by
  refine .pass hannounced fun found => ?_
  split
  · exact helems
  · exact .value rfl

/-! ### Recovery -/

theorem statements {part part' : σ → Parser σ} {f : σ → σ} (hpart : ∀ a, Moves m f (part a) (part' (f a)))
    (a : σ) : Moves m f (Parser.bodyParts .statements part a) (Parser.bodyParts .statements part' (f a)) := by
  refine .loop (fun a => .query (fun s => by simp) fun ended => ?_) a
  split
  · exact .value rfl
  · intro setting s
    unfold Parser.resilient
    rw [State.halted_move, State.rest_move, hpart a setting s]
    have habandon (s : State) : Recovery.statements.abandon (s.rest.map (Lexeme.shift m.bytes)) =
        Recovery.statements.abandon s.rest := Recovery.toClosingBrace_shift 0 s.rest
    have hresume (s : State) : Recovery.statements.resume (s.rest.map (Lexeme.shift m.bytes)) =
        Recovery.statements.resume s.rest := Recovery.toStatement_shift 0 s.rest
    split
    · rw [habandon, State.skip_move]
      rfl
    · cases part a setting s with
      | ok b after => rfl
      | fail e after =>
        simp only [Reply.move, State.record_move, State.halted_move, State.rest_move, habandon, hresume,
          State.skip_move, List.length_map, State.advance_move]
        split
        · rfl
        · split <;> rfl

end ActorFrontend.Parser.Moves

import ActorFrontend.Grammar.Source
import ActorFrontend.Proofs.Nesting.Limit
import ActorFrontend.Proofs.Progress
import ActorFrontend.Proofs.WireText.Reading

/-!
# Printed wire declarations are read back

A source that holds the tokens of a wire declaration is read as that declaration, without an error: its
members, their tags and their attributes are the same, in the same order.
-/

namespace ActorFrontend

variable {setting : Setting} {s : State} {lexemes rest : List Lexeme} {levels n : Nat} {d : WireDecl}

namespace Parser

theorem arrives_members (hn : n ≤ levels) (hlevels : levels ≤ setting.limits.maxDepth)
    (hstandard : Limits.standard.maxDepth ≤ levels) {members : List WireMember} {right : Lexeme}
    (hmembers : InARow (WithSemicolon (WireMember.Spelled n)) members lexemes)
    (hright : right.token.kind = .symbol .rightBrace) (hs : s.Stands (lexemes ++ right :: rest)) :
    (collect (separatedTurn (wireMember (.within levels))) setting s).Arrives (right :: rest)
      fun found => relabel .bare found = relabel .bare members := by
  have hfollow := Rules.follow_within levels
  refine arrives_collect (fun rest => ∀ value, (kindsOf rest).head? ≠ some (.int value))
    (progresses (follows_collectTurn (follows_separatedTurn (consumes_wireMember hfollow)))) ?_
    (fun s hs => ?_) (fun m lexemes rest hm _ value => ?_)
    (fun m lexemes rest s hm hrest hs => arrives_memberTurn hn hlevels hstandard hm hrest hs) hmembers hs
  · rw [kindsOf_cons, hright]
    simp
  · rw [separatedTurn, atBodyEnd, query_bind, hs.kind, hright]
    exact ⟨rfl, hs⟩
  · obtain ⟨hm, -⟩ := hm
    obtain ⟨name, ks, hkinds⟩ := hm.starts
    rw [kindsOf_append, kindsOf_append, hkinds]
    simp

theorem arrives_wireKind {lexeme : Lexeme} {kind : WireKind} (hs : s.Stands (lexeme :: rest))
    (hkind : lexeme.token.kind = .keyword kind.keyword) :
    (wireKind setting s).Arrives rest fun found => found = kind := by
  cases kind with
  | struct => exact arrives_ifAccepted hs (by rw [hkind]; rfl) fun t ht => ⟨rfl, ht⟩
  | enum =>
    refine arrives_ifUnaccepted (by rw [hs.kind, hkind]; rfl) ?_
    exact arrives_ifAccepted hs (by rw [hkind]; rfl) fun t ht => ⟨rfl, ht⟩

theorem arrives_wireDecl (hn : n ≤ levels) (hlevels : levels ≤ setting.limits.maxDepth)
    (hstandard : Limits.standard.maxDepth ≤ levels) (hd : d.Spelled n lexemes)
    (hs : s.Stands (lexemes ++ rest)) :
    (wireDecl (.within levels) setting s).Arrives rest
      fun found => relabel .bare found = relabel .bare d := by
  obtain @⟨kind, name, members, head, lexemes, right, hhead, hmembers, hright⟩ := hd
  obtain ⟨wire, _, rfl, hwire, hhead⟩ := List.map_eq_cons_iff.1 hhead
  obtain ⟨form, _, rfl, hform, hhead⟩ := List.map_eq_cons_iff.1 hhead
  obtain ⟨word, _, rfl, hword, hhead⟩ := List.map_eq_cons_iff.1 hhead
  obtain ⟨left, _, rfl, hleft, hhead⟩ := List.map_eq_cons_iff.1 hhead
  obtain rfl := List.map_eq_nil_iff.1 hhead
  apply Reply.Arrives.bind (arrives_require hs (by rw [hwire]; rfl))
  intro _ s₁ _ hs₁
  apply Reply.Arrives.bind (arrives_wireKind hs₁ hform)
  rintro found s₂ rfl hs₂
  apply Reply.Arrives.bind (arrives_name hs₂ hword)
  rintro found s₃ rfl hs₃
  have hbody : (separatedMembers (wireMember (.within levels)) setting s₃).Arrives rest
      fun found => relabel .bare found = relabel .bare members := by
    apply Reply.Arrives.bind (arrives_require hs₃ (by rw [hleft]; rfl))
    intro _ s₄ _ hs₄
    have hs₄ : s₄.Stands (lexemes ++ right :: rest) := by simpa using hs₄
    apply Reply.Arrives.bind (arrives_members hn hlevels hstandard hmembers hright hs₄)
    intro found s₅ hfound hs₅
    apply Reply.Arrives.bind (arrives_require hs₅ (by rw [hright]; rfl))
    intro _ s₆ _ hs₆
    exact ⟨hfound, hs₆⟩
  apply Reply.Arrives.bind hbody
  intro found s₄ hfound hs₄
  exact ⟨congrArg (fun members => (⟨_, _, members⟩ : WireDecl)) hfound, hs₄⟩

/-! ## Items and programs -/

/-- The item is the declaration, but for places and numbers, and nothing makes it public. -/
def IsWireItem (d : WireDecl) (item : Item) : Prop :=
  item.vis = .privateVis ∧ ∃ d', item.kind = .wire d' ∧ relabel .bare d' = relabel .bare d

theorem arrives_item (hn : n ≤ levels) (hlevels : levels ≤ setting.limits.maxDepth)
    (hstandard : Limits.standard.maxDepth ≤ levels) (hd : d.Spelled n lexemes)
    (hs : s.Stands (lexemes ++ rest)) :
    (item (.within levels) setting s).Arrives rest (IsWireItem d) := by
  obtain ⟨wire, lexemes', hlexemes, hwire⟩ := hd.starts
  have hkind {s : State} (hs : s.Stands (lexemes ++ rest)) : s.kind = .keyword .wireKw := by
    rw [hlexemes] at hs
    rw [hs.kind, hwire]
  have hvisibility : (visibility setting s).Arrives (lexemes ++ rest) fun vis => vis = .privateVis :=
    arrives_ifUnaccepted (by rw [hkind hs]; rfl) ⟨rfl, hs⟩
  rw [item, start_bind]
  apply Reply.Arrives.bind hvisibility
  rintro vis s₁ rfl hs₁
  have hitem : (itemKind (.within levels) setting s₁).Arrives rest
      fun kind => ∃ d', kind = .wire d' ∧ relabel .bare d' = relabel .bare d := by
    rw [itemKind, kind_bind, hkind hs₁]
    apply Reply.Arrives.bind (arrives_wireDecl hn hlevels hstandard hd hs₁)
    intro d' s₂ hd' hs₂
    exact ⟨⟨d', rfl, hd'⟩, hs₂⟩
  apply Reply.Arrives.bind hitem
  intro kind s₂ hkind hs₂
  exact ⟨⟨rfl, hkind⟩, hs₂.rest, hs₂.errors, hs₂.running, hs₂.context, hs₂.depth⟩

theorem arrives_program (hn : n ≤ levels) (hlevels : levels ≤ setting.limits.maxDepth)
    (hstandard : Limits.standard.maxDepth ≤ levels) (hd : d.Spelled n lexemes)
    (hs : s.Stands lexemes) :
    (Parser.program (.within levels) setting s).Arrives []
      fun program => ∃ item, program.items = [item] ∧ IsWireItem d item := by
  have hprogresses := progresses_programTurn (Rules.follow_within levels)
  have hwhole : s.Stands (lexemes ++ []) := by rwa [List.append_nil]
  obtain ⟨i, t, hitem, hi, ht⟩ := (arrives_item hn hlevels hstandard hd hwhole).exists_eq
  have hfirst : programTurn (.within levels) [] setting s = .ok (true, [i]) t := by
    obtain ⟨wire, lexemes', hlexemes, hwire⟩ := hd.starts
    have hmore : s.atEnd = false := by
      rw [State.atEnd, hs.rest, hlexemes]
      rfl
    have hpart : resilient .items (fun items => do
        let next ← item (.within levels)
        pure (next :: items)) [] setting s = .ok (true, [i]) t := by
      rw [Keeps.resilient_eq hs.running, bind_ok hitem]
      rfl
    rw [programTurn, atEnd, query_bind, hmore]
    exact hpart
  have hlast : programTurn (.within levels) [i] setting t = .ok (false, [i]) t := by
    have hend : t.atEnd = true := by
      rw [State.atEnd, ht.rest]
      rfl
    rw [programTurn, atEnd, query_bind, hend]
    rfl
  have hloop : loop (programTurn (.within levels)) [] setting s = .ok [i] t := by
    rw [loop_eq hprogresses, hfirst]
    show loop (programTurn (.within levels)) [i] setting t = _
    rw [loop_eq hprogresses, hlast]
  show ((loop (programTurn (.within levels)) [] >>= _) setting s).Arrives _ _
  rw [bind_ok hloop]
  exact ⟨⟨i, rfl, hi⟩, ht⟩

end Parser

/-- One private item is found, the declaration but for places and numbers, and no error. -/
def ParsedSource.HoldsWire (parsed : ParsedSource) (d : WireDecl) : Prop :=
  parsed.errors = [] ∧ ∃ item, parsed.program.items = [item] ∧ Parser.IsWireItem d item

/-- Every wire declaration can be spelled of which the types in variants nest no deeper than the limits
allow, and it is read back from a source that holds such tokens: those of a default value as its text on
its own has them, and then the parenthesis. -/
theorem parseSource_wire (limits : Limits) (hlimits : Limits.standard.maxDepth ≤ limits.maxDepth)
    (d : WireDecl) :
    (d.IsPrintable limits.maxDepth → ∃ lexemes, d.Spelled limits.maxDepth lexemes) ∧
    ∀ source, (tokenize source).errors = [] →
      d.Spelled limits.maxDepth (Lexeme.significant false (tokenize source).tokens) →
      (parseSource source limits).HoldsWire d := by
  refine ⟨WireDecl.exists_spelled, fun source hlexical hd => ?_⟩
  let session := Session.ofTokens (tokenize source).tokens limits
  have hs : session.state.Stands (Lexeme.significant false (tokenize source).tokens) :=
    ⟨rfl, rfl, rfl, rfl, rfl⟩
  have hread : (Parser.program session.rules session.setting session.state).Arrives [] fun program =>
      ∃ item, program.items = [item] ∧ Parser.IsWireItem d item :=
    Parser.arrives_program (Nat.le_refl _) (Nat.le_refl _) hlimits hd hs
  obtain ⟨program, t, hreply, ⟨item, hitems, hitem⟩, ht⟩ := hread.exists_eq
  have hprogram : session.program = (program, { session with state := t }) :=
    Session.program_eq_of_ok hreply
  have herrors : (parseSource source limits).errors = [] := by
    change SyntaxError.merge (tokenize source).errors session.program.2.errors limits.maxErrors = []
    rw [hlexical, hprogram]
    change SyntaxError.merge [] t.errors limits.maxErrors = []
    rw [ht.errors]
    simp [SyntaxError.merge]
  refine ⟨herrors, item, ?_, hitem⟩
  change session.program.1.items = _
  rw [hprogram]
  exact hitems

/-- A field that is named like a word, with a default value, a variant that is named like a type of lists,
and a tag that is reserved. -/
theorem parseSource_wire_words :
    ∃ e, parseExpression "1" = .ok e ∧
      let d : WireDecl := ⟨.enum, "E",
        [.field ⟨"reserved", .list (.primitive "u8"), some 1, [.default e, .optional], .empty 0⟩,
          .variant ⟨"list", .tuple [⟨0, .empty 0, .named ["T"] []⟩], .empty 0⟩,
          .reserved [7] (.empty 0)]⟩
      (∃ lexemes, d.Spelled 256 lexemes) ∧
        (parseSource
          "wire enum E \x7b reserved: list[u8] @1 default(1) optional; list(T); reserved(7); \x7d"
          .standard).HoldsWire d := by
  have haccepted : (parseExpression "1").isOk = true := by decide +kernel
  cases hparse : parseExpression "1" with
  | error errors =>
    rw [hparse] at haccepted
    cases haccepted
  | ok e =>
    have hvalue : e.WrittenAs [⟨⟨.int 1, "1", ⟨44, 45⟩⟩, false⟩] := by
      refine ⟨_, e, hparse, rfl, ?_⟩
      show Lexeme.AlikeUpTo _ _ [⟨⟨.int 1, "1", ⟨0, 1⟩⟩, false⟩] _
      exact .cons (.same _) (fun _ => rfl) nofun (fun _ _ => rfl) .nil
    have hdefault : (WireAttr.default e).Spelled
        (⟨⟨.ident "default", "default", ⟨36, 43⟩⟩, false⟩ ::
          ⟨⟨.symbol .leftParen, "(", ⟨43, 44⟩⟩, false⟩ ::
          ([⟨⟨.int 1, "1", ⟨44, 45⟩⟩, false⟩] ++ [⟨⟨.symbol .rightParen, ")", ⟨45, 46⟩⟩, false⟩])) :=
      .default rfl rfl hvalue rfl
    have hoptional : WireAttr.optional.Spelled [⟨⟨.ident "optional", "optional", ⟨47, 55⟩⟩, false⟩] :=
      .optional rfl
    have hfield : WireField.Spelled
        ⟨"reserved", .list (.primitive "u8"), some 1, [.default e, .optional], .empty 0⟩
        ([⟨⟨.ident "reserved", "reserved", ⟨14, 22⟩⟩, false⟩, ⟨⟨.symbol .colon, ":", ⟨22, 23⟩⟩, false⟩,
          ⟨⟨.ident "list", "list", ⟨24, 28⟩⟩, false⟩, ⟨⟨.symbol .leftBracket, "[", ⟨28, 29⟩⟩, false⟩,
          ⟨⟨.ident "u8", "u8", ⟨29, 31⟩⟩, false⟩, ⟨⟨.symbol .rightBracket, "]", ⟨31, 32⟩⟩, false⟩,
          ⟨⟨.symbol .atSign, "@", ⟨33, 34⟩⟩, false⟩, ⟨⟨.int 1, "1", ⟨34, 35⟩⟩, false⟩] ++ _) :=
      .intro rfl (.list (.primitive (by decide))) (.cons hdefault (.cons hoptional .nil))
    have htype : TypeExpr.Spelled 256 ⟨0, .empty 0, .named ["T"] []⟩ [.ident "T"] :=
      .plain (.named (List.cons_ne_nil _ _) .nil)
    have hvariant : WireMember.Spelled 256 (.variant ⟨"list", .tuple [_], .empty 0⟩)
        [⟨⟨.ident "list", "list", ⟨57, 61⟩⟩, false⟩, ⟨⟨.symbol .leftParen, "(", ⟨61, 62⟩⟩, false⟩,
          ⟨⟨.ident "T", "T", ⟨62, 63⟩⟩, false⟩, ⟨⟨.symbol .rightParen, ")", ⟨63, 64⟩⟩, false⟩] :=
      .variant (.tuple (by decide) (CommaSeparated.last htype))
    have htags : TagsSpelled [7] [.symbol .leftParen, .int 7, .symbol .rightParen] :=
      .intro (List.cons_ne_nil _ _) (CommaSeparated.last rfl)
    have hreserved : WireMember.Spelled 256 (.reserved [7] (.empty 0))
        [⟨⟨.ident "reserved", "reserved", ⟨66, 74⟩⟩, false⟩,
          ⟨⟨.symbol .leftParen, "(", ⟨74, 75⟩⟩, false⟩, ⟨⟨.int 7, "7", ⟨75, 76⟩⟩, false⟩,
          ⟨⟨.symbol .rightParen, ")", ⟨76, 77⟩⟩, false⟩] :=
      .reserved rfl htags
    have hends {m : WireMember} {lexemes : List Lexeme} (h : m.Spelled 256 lexemes) (start : Nat) :
        WithSemicolon (WireMember.Spelled 256) m
          (lexemes ++ [⟨⟨.symbol .semicolon, ";", ⟨start, start + 1⟩⟩, false⟩]) :=
      .intro h rfl
    have hd : WireDecl.Spelled 256 ⟨.enum, "E", [.field _, .variant _, .reserved [7] (.empty 0)]⟩
        ([⟨⟨.keyword .wireKw, "wire", ⟨0, 4⟩⟩, false⟩,
          ⟨⟨.keyword .enumKw, "enum", ⟨5, 9⟩⟩, false⟩, ⟨⟨.ident "E", "E", ⟨10, 11⟩⟩, false⟩,
          ⟨⟨.symbol .leftBrace, "\x7b", ⟨12, 13⟩⟩, false⟩] ++ _ ++
          [⟨⟨.symbol .rightBrace, "\x7d", ⟨79, 80⟩⟩, false⟩]) :=
      .intro rfl (.cons (hends (.field hfield) 55) (.cons (hends hvariant 64)
        (.cons (hends hreserved 77) .nil))) rfl
    obtain ⟨hspells, hreads⟩ := parseSource_wire .standard (Nat.le_refl _)
      ⟨.enum, "E",
        [.field ⟨"reserved", .list (.primitive "u8"), some 1, [.default e, .optional], .empty 0⟩,
          .variant ⟨"list", .tuple [⟨0, .empty 0, .named ["T"] []⟩], .empty 0⟩,
          .reserved [7] (.empty 0)]⟩
    refine ⟨e, rfl, hspells ?_, hreads _ (List.isEmpty_iff.1 (by decide +kernel)) hd⟩
    have hprintable : (WireType.list (.primitive "u8")).isPrintable = true := by decide
    refine List.forall_mem_cons.2 ⟨⟨hprintable, ?_⟩, List.forall_mem_cons.2 ⟨⟨by decide, ?_⟩,
      List.forall_mem_singleton.2 (List.cons_ne_nil _ _)⟩⟩
    · exact List.forall_mem_cons.2 ⟨⟨_, e, hparse, rfl⟩, List.forall_mem_singleton.2 trivial⟩
    · exact List.forall_mem_singleton.2 (by decide)

/-! ## What is refused -/

/-- A type in so many slices. -/
def TypeExpr.inSlices : Nat → TypeExpr
  | 0 => ⟨0, .empty 0, .named ["T"] []⟩
  | n + 1 => ⟨0, .empty 0, .slice (inSlices n)⟩

/-- Every slice is a level. -/
theorem TypeExpr.lt_depthOf_shells {t : TypeExpr}
    (h : relabel .bare t = relabel .bare (inSlices n)) : n < Shell.depthOf (shells t) := by
  induction n generalizing t with
  | zero =>
    obtain ⟨id, span, kind⟩ := t
    exact Nat.lt_of_lt_of_le (Nat.succ_pos _) (Nat.le_max_left _ _)
  | succ n ih =>
    obtain ⟨id, span, kind⟩ := t
    cases kind with
    | slice elem =>
      have helem : relabel .bare elem = relabel .bare (inSlices n) := by
        injection h with _ _ hkind
        injection hkind
      have hinner : n < Shell.depthOf (shells elem) := ih helem
      exact Nat.lt_of_lt_of_le (Nat.succ_lt_succ hinner) (Nat.le_max_left _ _)
    | _ =>
      injection h with _ _ hkind
      cases hkind

/-- No source is read as a variant that holds a type in as many slices as there are levels. -/
theorem not_holdsWire_inSlices (source : String) (limits : Limits) (hn : limits.maxDepth ≤ n) :
    ¬ (parseSource source limits).HoldsWire
      ⟨.enum, "E", [.variant ⟨"A", .tuple [TypeExpr.inSlices n], .empty 0⟩]⟩ := by
  rintro ⟨-, item, hitems, -, d, hkind, hd⟩
  have hshallow : ∀ t ∈ shells (parseSource source limits).program, t.depth ≤ limits.maxDepth :=
    Session.good_program (R := .shallow limits) (fun _ _ => trivial) nofun
  obtain ⟨kind, name, members⟩ := d
  injection hd with _ _ hmembers
  obtain ⟨member, members, rfl, hmember, -⟩ := List.map_eq_cons_iff.1 hmembers
  cases member with
  | variant v =>
    obtain ⟨name, kind, span⟩ := v
    injection hmember with hvariant
    injection hvariant with _ htypes _
    cases kind with
    | tuple types =>
      injection htypes with htypes
      obtain ⟨t, types, rfl, ht, -⟩ := List.map_eq_cons_iff.1 htypes
      have hmem {shell : Shell} (h : shell ∈ shells t) :
          shell ∈ shells (parseSource source limits).program := by
        have htypes : shell ∈ shells (t :: types) := List.mem_append_left _ h
        have hitem : shell ∈ shells item := by
          show shell ∈ shells item.kind
          rw [hkind]
          exact List.mem_append_left _ htypes
        show shell ∈ shells (parseSource source limits).program.items
        rw [hitems]
        exact List.mem_append_left _ hitem
      have hdepth : Shell.depthOf (shells t) ≤ limits.maxDepth :=
        Shell.depthOf_le_iff.2 fun shell h => hshallow shell (hmem h)
      have hdeep : n < Shell.depthOf (shells t) := TypeExpr.lt_depthOf_shells ht
      omega
    | _ => cases htypes
  | _ => cases hmember

/-- A default value takes the parenthesis with it where its text ends in a comment, and there are types in
more slices than the standard limits allow. -/
theorem parseSource_wire_refused :
    (∃ e, parseExpression "1 // c" = .ok e ∧
      ¬ (parseSource "wire struct W \x7b a: u8 default(1 // c); \x7d" .standard).HoldsWire
        ⟨.struct, "W", [.field ⟨"a", .primitive "u8", none, [.default e], .empty 0⟩]⟩) ∧
    ∀ source, ¬ (parseSource source .standard).HoldsWire
      ⟨.enum, "E", [.variant ⟨"A", .tuple [TypeExpr.inSlices 256], .empty 0⟩]⟩ := by
  refine ⟨?_, fun source => not_holdsWire_inSlices source .standard (Nat.le_refl _)⟩
  have haccepted : (parseExpression "1 // c").isOk = true := by decide +kernel
  have hfails : (parseSource "wire struct W \x7b a: u8 default(1 // c); \x7d" .standard).errors.isEmpty
      = false := by
    decide +kernel
  cases hparse : parseExpression "1 // c" with
  | error errors =>
    rw [hparse] at haccepted
    cases haccepted
  | ok e =>
    refine ⟨e, rfl, fun ⟨hsilent, _⟩ => ?_⟩
    rw [hsilent] at hfails
    cases hfails

end ActorFrontend

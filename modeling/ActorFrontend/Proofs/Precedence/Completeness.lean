import ActorFrontend.Proofs.Precedence.Reading

/-!
# Reading canonical terms

Every canonical term is read from the tokens that spell it.  The operators on its left side are
taken one by one in the repetition that reads it; each right operand is a reading of its own, which
ends where the token behind it leaves the operand alone.
-/

namespace ActorFrontend

variable {setting : Setting} {s : State} {ks rest : List TokenKind}

/-- The reading of an expression has come to the term, and `rest` is left. -/
def Rules.Reached (g : Rules) (m : Nat) (setting : Setting) (s : State) (t : Term)
    (rest : List TokenKind) : Prop :=
  ∃ e s' fuel, Parser.exprRule g m setting s =
      Parser.repeatAlong (Parser.extend g m) fuel e setting s' ∧
    e.term? = some t ∧ s'.kinds = rest ∧ s'.depth = s.depth ∧ rest.length ≤ fuel.length

namespace Rules.Reached

variable {g : Rules} {m : Nat} {t t' : Term}

theorem of_operand
    (h : (Parser.operand g setting s).Gives rest s.depth fun e => e.term? = some t) :
    g.Reached m setting s t rest := by
  obtain ⟨e, s', hoperand, he, hkinds, hdepth⟩ := h.exists_eq
  have hrun : Parser.exprRule g m setting s =
      Parser.repeatAlong (Parser.extend g m) s'.rest e setting s' := by
    rw [Parser.exprRule, Parser.bind_ok hoperand]
    rfl
  have hlength : s'.rest.length = rest.length := by rw [State.kinds_length, hkinds]
  exact ⟨e, s', s'.rest, hrun, he, hkinds, hdepth, Nat.le_of_eq hlength.symm⟩

/-- One operator or continuation more. -/
theorem turn (h : g.Reached m setting s t ks) (hlength : rest.length < ks.length)
    (hturn : ∀ e s', e.term? = some t → s'.kinds = ks → s'.depth = s.depth →
      (Parser.extend g m e setting s').Gives rest s'.depth
        fun r => r.1 = true ∧ r.2.term? = some t') :
    g.Reached m setting s t' rest := by
  obtain ⟨e, s₁, fuel, hrun, he, hkinds₁, hdepth₁, hfuel⟩ := h
  obtain ⟨⟨again, e'⟩, s₂, hextend, ⟨hagain, he'⟩, hkinds₂, hdepth₂⟩ :=
    (hturn e s₁ he hkinds₁ hdepth₁).exists_eq
  have hmore : again = true := hagain
  subst hmore
  cases fuel with
  | nil =>
    rw [List.length_nil] at hfuel
    omega
  | cons lexeme fuel =>
    rw [List.length_cons] at hfuel
    rw [Parser.repeatAlong_again hextend] at hrun
    exact ⟨e', s₂, fuel, hrun, he', hkinds₂, hdepth₂.trans hdepth₁, by omega⟩

theorem gives (h : g.Reached m setting s t rest) (hrest : Stops m rest) :
    (Parser.exprRule g m setting s).Gives rest s.depth fun e => e.term? = some t := by
  obtain ⟨e, s', fuel, hrun, he, hkinds, hdepth, -⟩ := h
  have hlast : Parser.extend g m e setting s' = .ok (false, e) s' := by
    apply Parser.extend_eq
    rw [hkinds]
    exact hrest
  rw [hrun, Parser.repeatAlong_last hlast]
  exact ⟨he, hkinds, hdepth⟩

end Rules.Reached

/-- Wherever tokens that spell the term are left alone by what follows, and enough levels are left,
the reading of an expression comes to the term.  Operators must not need more power than `m`. -/
def Term.Reaches (m : Nat) (t : Term) : Prop :=
  ∀ {levels m' : Nat} {setting : Setting} {s : State} {ks rest : List TokenKind}, m' ≤ m → m' ≤ 19 →
    t.Spelled ks → t.nesting ≤ levels → s.depth + levels ≤ setting.limits.maxDepth →
    s.kinds = ks ++ rest → Clear rest → t.LeftAlone rest →
    (Rules.within levels).Reached m' setting s t rest

namespace Term.Reaches

variable {m levels depth : Nat} {t : Term}

theorem reads (h : t.Reaches m) (ht : t.Canonical m) (hm : m ≤ 19) (hks : t.Spelled ks)
    (hlevels : t.nesting < levels) (hdepth : depth + levels ≤ setting.limits.maxDepth) :
    (Rules.within levels).Reads setting depth m t ks := by
  intro s rest hs hsdepth hrest
  subst hsdepth
  cases levels with
  | zero => exact absurd hlevels (Nat.not_lt_zero _)
  | succ levels =>
    -- the reading uses up one of the levels itself
    apply Parser.gives_nested (by omega)
    intro s' hkinds hdepth'
    rw [← hdepth']
    apply Rules.Reached.gives _ hrest.stops
    exact h (Nat.le_refl m) hm hks (by omega) (by omega) (hkinds.trans hs) hrest.toClear
      (ht.leftAlone hm hrest.stops)

theorem int {value : UInt64} : (Term.int value).Reaches m := by
  intro levels m' setting s ks rest _ _ hks _ _ hs hrest _
  cases hks
  apply Rules.Reached.of_operand
  rw [Parser.operand, Parser.kind_bind, State.kind_eq hs]
  exact Parser.gives_asExpr (Parser.gives_int hs hrest.unnamed)

theorem name {name : String} : (Term.name name).Reaches m := by
  intro levels m' setting s ks rest _ _ hks _ _ hs hrest _
  cases hks
  apply Rules.Reached.of_operand
  rw [Parser.operand, Parser.kind_bind, State.kind_eq hs]
  exact Parser.gives_asExpr (Parser.gives_pathExpr hs hrest.plain)

theorem paren (h : t.Reaches 0) (ht : t.Canonical 0) : t.paren.Reaches m := by
  intro levels m' setting s ks rest _ _ hks hlevels hdepth hs hrest _
  cases hks with
  | paren hinner =>
    rw [List.cons_append, List.append_assoc] at hs
    apply Rules.Reached.of_operand
    rw [Parser.operand, Parser.kind_bind, State.kind_eq hs]
    exact Parser.gives_asExpr (Parser.gives_parenOrLambda hs hinner hrest.plain
      (h.reads ht (Nat.zero_le 19) hinner hlevels hdepth))

theorem prefixed {op : PrefixOp} (h : t.Reaches unaryPower) (ht : t.Canonical unaryPower) :
    (Term.prefixed op t).Reaches m := by
  intro levels m' setting s ks rest _ _ hks hlevels hdepth hs hrest halone
  cases hks with
  | prefixed hoperand =>
    obtain ⟨hkinds, hdepth'⟩ := State.kinds_advance hs
    have hread := h.reads ht (by decide) hoperand hlevels hdepth
    have hgives := hread s.advance rest hkinds hdepth' ⟨hrest, halone.stops⟩
    apply Rules.Reached.of_operand
    rw [Parser.operand, Parser.kind_bind, State.kind_eq hs]
    have hkind := Parser.gives_asExpr (Parser.gives_applied op hgives)
    cases op with
    | neg => exact hkind
    | not => exact hkind
    | await => exact hkind

theorem reads_args {args : List Term} (h : ∀ arg ∈ args, arg.Reaches 0)
    (hargs : ∀ arg ∈ args, arg.Canonical 0) (hlevels : nestingOf args ≤ levels)
    (hdepth : depth + levels ≤ setting.limits.maxDepth) :
    ∀ arg ∈ args, ∀ ks, arg.Spelled ks → (Rules.within levels).Reads setting depth 0 arg ks := by
  intro arg harg ks hks
  -- each argument goes down less far than all of them together
  have hnesting : arg.nesting < nestingOf args := by
    clear h hargs hlevels
    induction args with
    | nil => cases harg
    | cons arg' args ih =>
      rw [nestingOf]
      cases harg with
      | head => omega
      | tail _ harg =>
        have hlt := ih harg
        omega
  exact reads (h arg harg) (hargs arg harg) (Nat.zero_le 19) hks (by omega) hdepth

theorem call {args : List Term} (h : t.Reaches m) (hclosed : t.isClosed = true)
    (hfield : t.isField = false) (hreach : ∀ arg ∈ args, arg.Reaches 0)
    (hargs : ∀ arg ∈ args, arg.Canonical 0) : (t.call args).Reaches m := by
  intro levels m' setting s ks rest hle hm hks hlevels hdepth hs hrest _
  have hbelow : t.nesting ≤ levels ∧ nestingOf args ≤ levels := Nat.max_le.1 hlevels
  cases hks with
  | @call _ _ ks ks' hcallee hspelled =>
    rw [List.append_assoc] at hs
    have hclear : Clear (.symbol .leftParen :: (ks' ++ rest)) :=
      .cons rfl rfl (List.forall_mem_append.2 ⟨hspelled.plain, hrest.plain⟩)
    have halone : t.LeftAlone (.symbol .leftParen :: (ks' ++ rest)) :=
      ⟨stops_of_isClosed hclosed, by simp [hfield]⟩
    -- what ends in itself is continued on every level up to that of calls
    have hfirst := h hle hm hcallee (by omega) hdepth hs hclear halone
    apply hfirst.turn (by simp only [List.length_cons, List.length_append]; omega)
    intro e s' he hkinds hsdepth
    apply Parser.gives_extend_continuation hkinds rfl hm
    apply Parser.gives_call he hspelled hrest.plain _ hkinds
    exact reads_args hreach hargs (by omega) (by omega)

theorem index {i : Term} (h : t.Reaches m) (hclosed : t.isClosed = true) (hreach : i.Reaches 0)
    (hi : i.Canonical 0) : (t.index i).Reaches m := by
  intro levels m' setting s ks rest hle hm hks hlevels hdepth hs hrest _
  have hbelow : t.nesting ≤ levels ∧ i.nesting + 1 ≤ levels := Nat.max_le.1 hlevels
  cases hks with
  | @index _ _ ks ks' hobject hindex =>
    rw [List.append_assoc, List.cons_append, List.append_assoc] at hs
    have hclear : Clear (.symbol .leftBracket :: (ks' ++ ([.symbol .rightBracket] ++ rest))) := by
      apply Clear.cons rfl rfl
      have hplain := hindex.plain
      have hplain' := hrest.plain
      simpa [TokenKind.isPlain, or_imp, forall_and] using ⟨hplain, hplain'⟩
    have hfirst := h hle hm hobject (by omega) hdepth hs hclear
      ⟨stops_of_isClosed hclosed, by simp⟩
    apply hfirst.turn (by simp only [List.length_cons, List.length_append]; omega)
    intro e s' he hkinds hsdepth
    apply Parser.gives_extend_continuation hkinds rfl hm
    apply Parser.gives_index he hrest.plain _ hkinds
    exact hreach.reads hi (Nat.zero_le 19) hindex (by omega) (by omega)

theorem field {name : String} (h : t.Reaches m) (hclosed : t.isClosed = true) :
    (t.field name).Reaches m := by
  intro levels m' setting s ks rest hle hm hks hlevels hdepth hs hrest halone
  cases hks with
  | field hobject =>
    rw [List.append_assoc] at hs
    have hclear : Clear ([.symbol .dot, .ident name] ++ rest) :=
      .cons rfl rfl (List.forall_mem_cons.2 ⟨rfl, hrest.plain⟩)
    have hfirst := h hle hm hobject hlevels hdepth hs hclear
      ⟨stops_of_isClosed hclosed, by simp⟩
    apply hfirst.turn (by simp only [List.length_cons, List.length_append]; omega)
    intro e s' he hkinds _
    apply Parser.gives_extend_continuation hkinds rfl (by omega : m' ≤ 20)
    exact Parser.gives_field he (halone.uncalled rfl) hkinds

theorem methodCall {method : String} {args : List Term} (h : t.Reaches m)
    (hclosed : t.isClosed = true) (hreach : ∀ arg ∈ args, arg.Reaches 0)
    (hargs : ∀ arg ∈ args, arg.Canonical 0) : (t.methodCall method args).Reaches m := by
  intro levels m' setting s ks rest hle hm hks hlevels hdepth hs hrest _
  have hbelow : t.nesting ≤ levels ∧ nestingOf args ≤ levels := Nat.max_le.1 hlevels
  cases hks with
  | @methodCall _ _ _ ks ks' hobject hspelled =>
    rw [List.append_assoc] at hs
    have hclear : Clear
        (.symbol .dot :: .ident method :: .symbol .leftParen :: (ks' ++ rest)) := by
      apply Clear.cons rfl rfl
      have hplain := hspelled.plain
      have hplain' := hrest.plain
      simpa [TokenKind.isPlain, or_imp, forall_and] using ⟨hplain, hplain'⟩
    have hfirst := h hle hm hobject (by omega) hdepth hs hclear
      ⟨stops_of_isClosed hclosed, by simp⟩
    apply hfirst.turn (by simp only [List.length_cons, List.length_append]; omega)
    intro e s' he hkinds hsdepth
    apply Parser.gives_extend_continuation hkinds rfl (by omega : m' ≤ 20)
    apply Parser.gives_methodCall he hspelled hrest.plain _ hkinds
    exact reads_args hreach hargs (by omega) (by omega)

theorem propagate (h : t.Reaches m) (hclosed : t.isClosed = true) : t.propagate.Reaches m := by
  intro levels m' setting s ks rest hle hm hks hlevels hdepth hs hrest _
  cases hks with
  | propagate hoperand =>
    rw [List.append_assoc] at hs
    have hclear : Clear ([.symbol .question] ++ rest) := .cons rfl rfl hrest.plain
    have hfirst := h hle hm hoperand hlevels hdepth hs hclear
      ⟨stops_of_isClosed hclosed, by simp⟩
    apply hfirst.turn (by simp only [List.length_cons, List.length_append]; omega)
    intro e s' he hkinds _
    apply Parser.gives_extend_continuation hkinds rfl hm
    exact Parser.gives_propagate he hkinds

theorem operation {op : OperatorToken} {left right : Term} (hpower : m ≤ op.power)
    (hreachLeft : left.Reaches op.leftPower) (hreachRight : right.Reaches op.rightPower)
    (hleft : left.Canonical op.leftPower) (hright : right.Canonical op.rightPower) :
    (Term.operation op left right).Reaches m := by
  intro levels m' setting s ks rest hle hm hks hlevels hdepth hs hrest halone
  have hbelow : left.nesting ≤ levels ∧ right.nesting + 1 ≤ levels := Nat.max_le.1 hlevels
  cases hks with
  | @operation _ k _ _ ks ks' hk hspelledLeft hspelledRight =>
    rw [List.append_assoc] at hs
    have hclear : Clear (k :: (ks' ++ rest)) :=
      .cons (OperatorToken.isPlain hk).1 (OperatorToken.isPlain hk).2
        (List.forall_mem_append.2 ⟨hspelledRight.plain, hrest.plain⟩)
    -- the left operand is reached in the same repetition, on the level of the whole expression
    have hlevel := op.power_le_leftPower
    have hfirst := hreachLeft (by omega) hm hspelledLeft (by omega) hdepth hs hclear
      ((hleft.leftAlone_iff hk).2 hleft)
    apply hfirst.turn (by simp only [List.length_cons, List.length_append]; omega)
    intro e s' he hkinds hsdepth
    apply Parser.gives_extend_operation hkinds hk (Nat.le_trans hle hpower)
    have hrightPower := op.rightPower_le
    apply Parser.gives_operation he _ hkinds ⟨hrest, halone.stops⟩
    exact hreachRight.reads hright (by omega) hspelledRight (by omega) (by omega)

end Term.Reaches

/-- Every canonical term is read. -/
theorem Term.Canonical.reaches {m : Nat} {t : Term} (h : t.Canonical m) : t.Reaches m := by
  induction h with
  | int => exact Term.Reaches.int
  | name => exact Term.Reaches.name
  | paren hinner ih => exact ih.paren hinner
  | call hclosed hfield _ hargs ih ihargs => exact ih.call hclosed hfield ihargs hargs
  | index hclosed _ hindex ih ihindex => exact ih.index hclosed ihindex hindex
  | field hclosed _ ih => exact ih.field hclosed
  | methodCall hclosed _ hargs ih ihargs => exact ih.methodCall hclosed ihargs hargs
  | propagate hclosed _ ih => exact ih.propagate hclosed
  | prefixed hoperand ih => exact ih.prefixed hoperand
  | operation hpower hleft hright ihleft ihright =>
    exact Term.Reaches.operation hpower ihleft ihright hleft hright

theorem Term.Canonical.reads {m levels depth : Nat} {t : Term} (h : t.Canonical m) (hm : m ≤ 19)
    (hks : t.Spelled ks) (hlevels : t.nesting < levels)
    (hdepth : depth + levels ≤ setting.limits.maxDepth) :
    (Rules.within levels).Reads setting depth m t ks :=
  Term.Reaches.reads h.reaches h hm hks hlevels hdepth

end ActorFrontend

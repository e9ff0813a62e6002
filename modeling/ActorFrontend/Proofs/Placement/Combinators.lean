import ActorFrontend.Proofs.Placement.Trail

/-!
# What the combinators lay

The rules by which the outlines of a reading follow from those of its parts.
-/

namespace ActorFrontend

open Source

variable {source : List Char} {setting : Setting} {α β σ : Type} {s₀ s : State}
  {os os' : List Outline} {b c d : Bool} {makes : β → List Outline → Prop}

namespace Trail

/-! ## Single tokens -/

/-- A token that carries a value, and what follows it. -/
theorem value {value? : TokenKind → Option α} {wanted : Expected} {q : α → Parser β}
    (h : Trail source setting s₀ b s os) (hvalue : value? .endOfFile = none)
    (hq : ∀ a, s.kind ≠ .endOfFile → Trail source setting s₀ true s.advance os →
      (q a setting s.advance).Lays source setting s₀ d makes) :
    ((Parser.valueOf value? wanted >>= q) setting s).Lays source setting s₀ d makes := by
  change (Parser.bind (Parser.valueOf value? wanted) q setting s).Lays source setting s₀ d makes
  rw [Parser.bind, Parser.valueOf_eq]
  cases ha : value? s.kind with
  | some a =>
    have hne : s.kind ≠ .endOfFile := fun heq => by simp [heq, hvalue] at ha
    exact hq a hne (h.advanceOver hne)
  | none => exact h.failed rfl

/-- A token that decides how the reading goes on. -/
theorem ifAccept {test : TokenKind → Bool} {yes no : Parser β}
    (h : Trail source setting s₀ b s os) (htest : test .endOfFile = false)
    (hyes : Trail source setting s₀ true s.advance os →
      (yes setting s.advance).Lays source setting s₀ d makes)
    (hno : (no setting s).Lays source setting s₀ d makes) :
    ((do if ← Parser.acceptIf test then yes else no) setting s).Lays source setting s₀ d makes := by
  have haccept := Parser.acceptIf_eq test setting s
  by_cases hkind : test s.kind = true
  · have hne : s.kind ≠ .endOfFile := fun heq => by simp [heq, htest] at hkind
    rw [if_pos hkind] at haccept
    rw [Parser.bind_ok haccept]
    exact hyes (h.advanceOver hne)
  · rw [if_neg hkind] at haccept
    rw [Parser.bind_ok haccept]
    exact hno

/-- A token that is passed over because it has been looked at. -/
theorem past {q : Unit → Parser β} (h : Trail source setting s₀ b s os)
    (hkind : s.kind ≠ .endOfFile)
    (hq : Trail source setting s₀ true s.advance os →
      (q () setting s.advance).Lays source setting s₀ d makes) :
    ((Parser.advance >>= q) setting s).Lays source setting s₀ d makes :=
  hq (h.advanceOver hkind)

end Trail

namespace Parser

theorem passes_acceptIf {test : TokenKind → Bool} (htest : test .endOfFile = false) :
    (acceptIf test).Passes source false := by
  intro setting s hs
  have h := Trail.refl hs
  rw [acceptIf_eq]
  by_cases hkind : test s.kind = true
  · have hne : s.kind ≠ .endOfFile := fun heq => by simp [heq, htest] at hkind
    rw [if_pos hkind]
    exact ⟨[], rfl, (h.advanceOver hne).weaken⟩
  · rw [if_neg hkind]
    exact ⟨[], rfl, h⟩

theorem passes_query (f : State → α) : (query f).Passes source false :=
  fun _ _ hs => ⟨[], rfl, .refl hs⟩

theorem passes_require {test : TokenKind → Bool} (htest : test .endOfFile = false)
    (wanted : Expected) : (require test wanted).Passes source true := by
  intro setting s hs
  have h := Trail.refl hs
  exact h.ifAccept htest (fun h => h.done rfl) (h.failed rfl)

theorem passes_valueOf {value? : TokenKind → Option α} (hvalue : value? .endOfFile = none)
    (wanted : Expected) : (valueOf value? wanted).Passes source true := by
  intro setting s hs
  have h := Trail.refl hs
  rw [valueOf_eq]
  cases ha : value? s.kind with
  | some a =>
    have hne : s.kind ≠ .endOfFile := fun heq => by simp [heq, hvalue] at ha
    exact ⟨[], rfl, h.advanceOver hne⟩
  | none => exact h.failed rfl

theorem passes_expect (symbol : Symbol) : (expect symbol).Passes source true :=
  passes_require rfl _

theorem passes_expectKeyword (keyword : Keyword) : (expectKeyword keyword).Passes source true :=
  passes_require rfl _

theorem passes_expectWord (word : String) : (expectWord word).Passes source true :=
  passes_require rfl _

theorem passes_name : name.Passes source true := passes_valueOf rfl _

theorem passes_string : string.Passes source true := passes_valueOf rfl _

theorem passes_integer : integer.Passes source true := passes_valueOf rfl _

theorem passes_semicolon : semicolon.Passes source false := by
  intro setting s hs
  have h := Trail.refl hs
  unfold semicolon
  split
  · exact ⟨[], rfl, h.advance⟩
  · split
    · exact ⟨[], rfl, h.record (Span.placed_empty hs.behind)⟩
    · exact h.failed rfl

end Parser

namespace Trail

/-! ## Nodes -/

/-- A node that starts at `start` and ends where the reading has come to. -/
theorem wrapFrom {s' : State} {id : Option Nat} {start : Nat} {parts aside : List Outline}
    (h : Trail source setting s₀ b s os) (hmerged : Merged parts aside os)
    (hstart : Boundary source start) (hlo : (s₀.span setting).start ≤ start)
    (hle : start ≤ s.previousEnd) (hbelow : ∀ o ∈ os, start ≤ o.span.start)
    (hs : s.SamePlace { s' with nextId := s.nextId }) (herrors : s'.errors = s.errors)
    (hnext : s.nextId ≤ s'.nextId) (hid : ∀ n ∈ id, s.nextId ≤ n ∧ n < s'.nextId) :
    Trail source setting s₀ b s' [.node id ⟨start, max s.previousEnd start⟩ parts aside] := by
  have hwithin : ∀ o ∈ os, start ≤ o.span.start ∧ o.span.stop ≤ s.previousEnd := by
    intro o ho
    exact ⟨hbelow o ho, (h.laid.within o ho).2⟩
  rw [Nat.max_eq_left hle]
  exact h.wrap hmerged hstart h.located.behind hle hlo (Nat.le_refl _) hwithin hs herrors hnext hid

/-- A numbered node around all that was laid since the reading started. -/
theorem nodeMerged {make : NodeId → Span → β} {parts aside : List Outline}
    (h : Trail source setting s₀ true s os) (hmerged : Merged parts aside os)
    (hmakes : ∀ id span, makes (make id span) [.node (some id) span parts aside]) :
    (Parser.node (s₀.span setting).start make setting s).Lays source setting s₀ true makes := by
  have hbelow : ∀ o ∈ os, (s₀.span setting).start ≤ o.span.start := by
    intro o ho
    exact (h.laid.within o ho).1
  exact ⟨_, hmakes _ _, h.wrapFrom hmerged h.base.boundary_span.1 (Nat.le_refl _) (h.passed rfl)
    hbelow ⟨rfl, rfl, rfl⟩ rfl (Nat.le_succ _) (by simp)⟩

theorem node {make : NodeId → Span → β} (h : Trail source setting s₀ true s os)
    (hmakes : ∀ id span, makes (make id span) [.node (some id) span os []]) :
    (Parser.node (s₀.span setting).start make setting s).Lays source setting s₀ true makes :=
  h.nodeMerged (.whole rfl) hmakes

/-- A numbered node that starts where the first of the outlines does. -/
theorem nodeFrom {make : NodeId → Span → β} {left : Outline}
    (h : Trail source setting s₀ b s (left :: os))
    (hmakes : ∀ id span, makes (make id span) [.node (some id) span (left :: os) []]) :
    (Parser.node left.span.start make setting s).Lays source setting s₀ b makes := by
  have hnested := h.laid.nested left (List.mem_cons_self ..)
  have hwithin := h.laid.within left (List.mem_cons_self ..)
  have hle : left.span.start ≤ s.previousEnd := Nat.le_trans hnested.start_le_stop hwithin.2
  exact ⟨_, hmakes _ _, h.wrapFrom (.whole rfl) hnested.boundary_start hwithin.1 hle
    h.start_le_of_mem ⟨rfl, rfl, rfl⟩ rfl (Nat.le_succ _) (by simp)⟩

/-- A span around all that was laid since the reading started makes a node of it. -/
theorem spanFrom {q : Span → Parser β} (h : Trail source setting s₀ true s os)
    (hq : ∀ span, Trail source setting s₀ true s [.node none span os []] →
      (q span setting s).Lays source setting s₀ d makes) :
    ((Parser.spanFrom (s₀.span setting).start >>= q) setting s).Lays source setting s₀ d makes := by
  have hbelow : ∀ o ∈ os, (s₀.span setting).start ≤ o.span.start := by
    intro o ho
    exact (h.laid.within o ho).1
  exact hq _ (h.wrapFrom (.whole rfl) h.base.boundary_span.1 (Nat.le_refl _) (h.passed rfl) hbelow
    ⟨rfl, rfl, rfl⟩ rfl (Nat.le_refl _) (by simp))

theorem part {make : Span → β} (h : Trail source setting s₀ true s os)
    (hmakes : ∀ span, makes (make span) [.node none span os []]) :
    ((do pure (make (← Parser.spanFrom (s₀.span setting).start))) setting s).Lays source setting
      s₀ true makes :=
  h.spanFrom fun span h => h.done (hmakes span)

end Trail

namespace Parser

/-! ## Context, nesting and speculation -/

theorem laysThat_withContext {p : Parser β} (hp : p.LaysThat source c makes) (context : Context) :
    (withContext context p).LaysThat source c makes := by
  intro setting s hs
  have hrun := hp setting { s with context } (hs.congr rfl rfl hs.errors)
  have hback : (p setting _).Lays source setting s c makes := hrun.rebase ⟨rfl, rfl, rfl⟩ hs
  exact Reply.Lays.mapState hback fun _ => ⟨⟨rfl, rfl, rfl⟩, rfl⟩

theorem laysThat_enclosed {p : Parser β} (hp : p.LaysThat source c makes) :
    (enclosed p).LaysThat source c makes :=
  laysThat_withContext hp _

theorem laysThat_nested {p : Parser β} (hp : p.LaysThat source c makes) :
    (nested p).LaysThat source c makes := by
  intro setting s hs
  unfold nested
  split
  · exact (Trail.refl hs).failed rfl
  · have hrun := hp setting { s with depth := s.depth + 1 } (hs.congr rfl rfl hs.errors)
    have hback : (p setting _).Lays source setting s c makes := hrun.rebase ⟨rfl, rfl, rfl⟩ hs
    exact Reply.Lays.mapState hback fun _ => ⟨⟨rfl, rfl, rfl⟩, rfl⟩

end Parser

namespace Trail

/-- In another context a reading goes on as it would in the present one. -/
theorem enclosed {p : Parser β} (h : Trail source setting s₀ b s os)
    (hp : ∀ s', Trail source setting s₀ b s' os →
      (p setting s').Lays source setting s₀ d makes) :
    (Parser.enclosed p setting s).Lays source setting s₀ d makes :=
  Reply.Lays.mapState (hp _ (h.congr ⟨rfl, rfl, rfl⟩ h.located.errors)) fun _ =>
    ⟨⟨rfl, rfl, rfl⟩, rfl⟩

/-- A reading that is tried goes on as if it had been known to succeed, or as if it had not been
tried. -/
theorem attempt {p : Parser α} {q : Option α → Parser β} {view : α → List Outline}
    (h : Trail source setting s₀ b s os) (hp : p.Lays source c view)
    (hsome : ∀ a s', Trail source setting s₀ (b || c) s' (os ++ view a) →
      (q (some a) setting s').Lays source setting s₀ d makes)
    (hnone : ∀ s', s.SamePlace s' → Trail source setting s₀ b s' os →
      (q none setting s').Lays source setting s₀ d makes) :
    ((Parser.attempt p >>= q) setting s).Lays source setting s₀ d makes := by
  have hrun := hp setting s h.located
  change (Parser.bind (Parser.attempt p) q setting s).Lays source setting s₀ d makes
  unfold Parser.bind Parser.attempt
  cases hreply : p setting s with
  | ok a s' =>
    rw [hreply] at hrun
    obtain ⟨_, rfl, htrail⟩ := hrun
    exact hsome a s' (h.trans htrail)
  | fail e s' =>
    rw [hreply] at hrun
    -- the place and the numbers are those before the trial, and no error has been put in
    have herrors : ∀ e ∈ s'.errors.take s.errors.length, e.span.Placed source :=
      fun e he => hrun.2.located.errors e (List.mem_of_mem_take he)
    exact hnone _ ⟨rfl, rfl, rfl⟩ (h.congr ⟨rfl, rfl, rfl⟩ herrors)

end Trail

/-! ## Repetition -/

/-- What has been laid makes up what a repetition has found so far. -/
theorem Trail.loop {step : σ → Parser (Bool × σ)} {found : σ → List Outline → Prop} {a : σ}
    (h : Trail source setting s₀ b s os) (hfound : found a os)
    (hstep : ∀ a s os, found a os → Trail source setting s₀ b s os →
      (step a setting s).Lays source setting s₀ b fun r os => found r.2 os) :
    (Parser.loop step a setting s).Lays source setting s₀ b found :=
  Parser.endsWith_loop (fun a s => ∃ os, found a os ∧ Trail source setting s₀ b s os)
    (fun a s ⟨os, hfound, htrail⟩ => hstep a s os hfound htrail) ⟨os, hfound, h⟩

namespace Parser

theorem passes_loop {step : σ → Parser (Bool × σ)} (hstep : ∀ a, (step a).Passes source false)
    (a : σ) : (loop step a).Passes source false := by
  intro setting s hs
  refine (Trail.refl hs).loop rfl fun a s os hos h => ?_
  subst hos
  exact h.last (hstep a) fun _ => rfl

/-- The turns of a repetition lay one after another what they find. -/
theorem lays_collect {step : Parser (Bool × List α)} (view : α → List Outline)
    (hstep : step.Lays source false fun r => r.2.flatMap view) :
    (collect step).Lays source false fun as => as.flatMap view := by
  have hturns : (loop (collectTurn step) []).Lays source false
      fun turns => turns.reverse.flatten.flatMap view := by
    intro setting s hs
    refine (Trail.refl hs).loop rfl fun turns s os hos h => ?_
    subst hos
    apply h.bind hstep
    intro r s h
    exact h.weaken.done (by simp)
  intro setting s hs
  unfold collect
  exact (Trail.refl hs).bind hturns fun turns s h => h.done rfl

theorem passes_collect {step : Parser (Bool × List α)} (hstep : step.Passes source false) :
    (collect step).Passes source false := by
  intro setting s hs
  have hnil : ∀ as : List α, [] = as.flatMap fun _ => ([] : List Outline) := by simp
  -- to pass is to lay a view that is empty throughout
  have hcollect := lays_collect (fun _ => []) fun setting s hs =>
    (hstep setting s hs).makesAlso fun r _ hos => hos ▸ (hnil r.2).symm
  exact (hcollect setting s hs).makesAlso fun as _ hos => hos ▸ hnil as

theorem lays_commaList {elem : Parser α} {view : α → List Outline}
    (helem : elem.Lays source c view) (close : Symbol) :
    (commaList close elem).Lays source true fun as => as.flatMap view := by
  intro setting s hs
  unfold commaList
  refine (Trail.refl hs).bind (lays_collect view fun setting s hs => ?_) fun elems s h => ?_
  · have h := Trail.refl hs
    apply Trail.query
    split
    · exact h.done rfl
    · apply h.bind helem
      intro a s h
      apply h.pass (passes_acceptIf rfl)
      intro again s h
      exact h.weaken.done (by simp)
  · apply h.pass (passes_expect close)
    intro _ s h
    exact h.done rfl

theorem lays_commaTail {elem : Parser α} {view : α → List Outline}
    (helem : elem.Lays source c view) (close : Symbol) :
    (commaTail close elem).Lays source true fun as => as.flatMap view := by
  intro setting s hs
  unfold commaTail
  refine (Trail.refl hs).bind (lays_collect view fun setting s hs => ?_) fun elems s h => ?_
  · have h := Trail.refl hs
    refine h.ifAccept rfl (fun h => ?_) (h.done rfl)
    apply Trail.query
    split
    · exact h.weaken.done rfl
    · apply h.bind helem
      intro a s h
      exact h.weaken.done (by simp)
  · apply h.pass (passes_expect close)
    intro _ s h
    exact h.done rfl

theorem passes_commaTail {elem : Parser α} (helem : elem.Passes source c) (close : Symbol) :
    (commaTail close elem).Passes source true := by
  have hnil : ∀ as : List α, [] = as.flatMap fun _ => ([] : List Outline) := by simp
  intro setting s hs
  exact (lays_commaTail helem close setting s hs).makesAlso fun as _ hos => hos ▸ hnil as

theorem lays_optional {announced : Parser Bool} {p : Parser α} {view : α → List Outline}
    (hannounced : announced.Passes source c) (hp : p.Lays source d view) :
    (optional announced p).Lays source false fun a => a.toList.flatMap view := by
  intro setting s hs
  unfold optional
  apply (Trail.refl hs).pass hannounced
  intro found s h
  split
  · apply h.bind hp
    intro a s h
    exact h.weaken.done (by simp)
  · exact h.weaken.done rfl

theorem passes_optional {announced : Parser Bool} {p : Parser α}
    (hannounced : announced.Passes source c) (hp : p.Passes source d) :
    (optional announced p).Passes source false := by
  have hnil : ∀ a : Option α, [] = a.toList.flatMap fun _ => ([] : List Outline) := by simp
  intro setting s hs
  exact (lays_optional hannounced hp setting s hs).makesAlso fun a _ hos => hos ▸ hnil a

theorem lays_listIf {announced : Parser Bool} {p : Parser (List α)} {view : α → List Outline}
    (hannounced : announced.Passes source c) (hp : p.Lays source d fun as => as.flatMap view) :
    (listIf announced p).Lays source false fun as => as.flatMap view := by
  intro setting s hs
  unfold listIf
  apply (Trail.refl hs).pass hannounced
  intro found s h
  split
  · exact (h.last hp fun as => rfl).weaken
  · exact h.weaken.done rfl

theorem passes_path : path.Passes source true := by
  intro setting s hs
  unfold path
  apply (Trail.refl hs).pass passes_name
  intro first s h
  refine h.pass (passes_collect fun setting s hs => ?_) fun more s h => h.done rfl
  have h := Trail.refl hs
  apply Trail.query
  split
  · exact h.advance.pass passes_name fun part s h => h.weaken.done rfl
  · exact h.done rfl

end Parser

/-! ## Recovery -/

/-- A part that fails costs nothing of what was laid before it. -/
theorem Trail.resilient {recovery : Recovery} {part : σ → Parser σ} {a : σ}
    (h : Trail source setting s₀ b s os) (found : σ → List Outline → Prop) (hfound : found a os)
    (hpart : (part a).LaysThat source c fun a' os' => found a' (os ++ os')) :
    (Parser.resilient recovery part a setting s).Lays source setting s₀ false
      fun r os => found r.2 os := by
  have hrun := hpart setting s h.located
  unfold Parser.resilient
  split
  · exact ⟨os, hfound, (h.skip _).weaken⟩
  · cases hreply : part a setting s with
    | ok a' s' =>
      rw [hreply] at hrun
      obtain ⟨os', hfound', htrail⟩ := hrun
      exact ⟨_, hfound', (h.trans htrail).weaken⟩
    | fail e s' =>
      rw [hreply] at hrun
      -- nothing of the failed part counts, but what it read is behind the reading
      have hnoted := (h.follow hrun.2).weaken.record hrun.1
      simp only
      split
      · exact ⟨os, hfound, hnoted.skip _⟩
      · refine ⟨os, hfound, ?_⟩
        split
        · exact (hnoted.skip _).advance
        · exact hnoted.skip _

namespace Parser

theorem laysThat_bodyParts {recovery : Recovery} {part : σ → Parser σ}
    {found : σ → List Outline → Prop} {a : σ} (ha : found a [])
    (hpart : ∀ a os, found a os → (part a).LaysThat source c fun a' os' => found a' (os ++ os')) :
    (bodyParts recovery part a).LaysThat source false found := by
  intro setting s hs
  apply (Trail.refl hs).loop ha
  intro a s os hfound h
  apply Trail.query
  split
  · exact h.done hfound
  · exact h.resilient found hfound (hpart a os hfound)

/-- A part that is put before those found so far. -/
theorem laysThat_found {p : Parser α} {view : α → List Outline} (hp : p.Lays source c view)
    (found : List α) (os : List Outline) (hos : found.reverse.flatMap view = os) :
    (do let next ← p; pure (next :: found)).LaysThat source c fun found' os' =>
      found'.reverse.flatMap view = os ++ os' := by
  intro setting s hs
  apply (Trail.refl hs).bind hp
  intro next s h
  exact h.done (by simp [hos])

end Parser

end ActorFrontend

/-
  MockSchema.Proofs.ParserComplete — what the grammar derives, the parser accepts, or it says
  that the text nests too deeply; and the grammar derives one tree at most.

  A reader is looked at with every number of levels at once. `Settles r a`: from some number of levels on
  `r` returns `a`, with fewer it says "too deep". A loop over left operands gives no level back
  before it ends, so for a phrase that such a loop reads the statement is about what the loop goes on
  with: `Passes r s`, where `r` goes some levels down and is then where `s` begins. `complete`
  is by induction on a derivation, with one of the two for each phrase (`Complete`), provided that
  what follows does not go on with the phrase (`Grammar.grip`).
-/

import MockSchema.Proofs.ParserSound

namespace MockSchema.Parse

open Grammar

variable {α β : Type}

/-! ## Readers with every number of levels -/

def Deep (r : Result α) : Prop := ∃ o, r = .error ⟨.tooDeep, o⟩

def Settles (r : Nat → Result α) (a : α) : Prop :=
  ∃ n, (∀ k, k < n → Deep (r k)) ∧ ∀ k, n ≤ k → r k = .ok a

def Passes (r s : Nat → Result α) : Prop :=
  ∃ m n, (∀ k, k < n + m → Deep (r k)) ∧ ∀ k, n ≤ k → r (k + m) = s k

theorem Deep.bind {r : Result α} (h : Deep r) (f : α → Result β) : Deep (r >>= f) := by
  obtain ⟨o, rfl⟩ := h
  exact ⟨o, rfl⟩

theorem Settles.ok (a : α) : Settles (fun _ => .ok a) a :=
  ⟨0, fun k hk => absurd hk (Nat.not_lt_zero k), fun _ _ => rfl⟩

theorem Settles.bind {r : Nat → Result α} {f : Nat → α → Result β} {a : α} {b : β} (h : Settles r a)
    (h' : Settles (fun k => f k a) b) : Settles (fun k => r k >>= f k) b := by
  obtain ⟨n, hlow, hn⟩ := h
  obtain ⟨n', hlow', hn'⟩ := h'
  refine ⟨max n n', fun k hk => ?_, fun k hk => ?_⟩
  · by_cases hk' : k < n
    · exact (hlow k hk').bind _
    · simp only [hn k (by omega)]
      exact hlow' k (by omega)
  · simp only [hn k (by omega)]
    exact hn' k (by omega)

/-- A reader of the level above. -/
theorem Settles.above {r s : Nat → Result α} {a : α} (h : Settles r a) (h0 : Deep (s 0))
    (hs : ∀ k, s (k + 1) = r k) : Settles s a := by
  obtain ⟨n, hlow, hn⟩ := h
  refine ⟨n + 1, fun k hk => ?_, fun k hk => ?_⟩
  · cases k with
    | zero => exact h0
    | succ k => rw [hs]; exact hlow k (by omega)
  · obtain ⟨k, rfl⟩ : ∃ k', k = k' + 1 := ⟨k - 1, by omega⟩
    rw [hs]; exact hn k (by omega)

theorem Settles.passes {r : Nat → Result α} {a : α} (h : Settles r a) (f : Nat → α → Result β) :
    Passes (fun k => r k >>= f k) (fun k => f k a) := by
  obtain ⟨n, hlow, hn⟩ := h
  refine ⟨0, n, fun k hk => (hlow k hk).bind _, fun k hk => ?_⟩
  simp only [Nat.add_zero, hn k hk]
  rfl

theorem Passes.settles {r s : Nat → Result α} {a : α} (h : Passes r s) (hs : Settles s a) :
    Settles r a := by
  obtain ⟨m, n, hlow, hn⟩ := h
  obtain ⟨n', hlow', hn'⟩ := hs
  refine ⟨max n n' + m, fun k hk => ?_, fun k hk => ?_⟩
  · by_cases hk' : k < n + m
    · exact hlow k hk'
    · obtain ⟨k, rfl⟩ : ∃ k', k = k' + m := ⟨k - m, by omega⟩
      rw [hn k (by omega)]
      exact hlow' k (by omega)
  · obtain ⟨k, rfl⟩ : ∃ k', k = k' + m := ⟨k - m, by omega⟩
    rw [hn k (by omega)]
    exact hn' k (by omega)

/-- One more turn of a loop: it goes a level down and reads a right operand there. -/
theorem Passes.turn {r s : Nat → Result α} {t : Nat → Result β} {f : Nat → β → Result α} {b : β}
    (h : Passes r s) (h0 : Deep (s 0)) (hs : ∀ k, s (k + 1) = t k >>= f k) (ht : Settles t b) :
    Passes r (fun k => f k b) := by
  obtain ⟨m, n, hlow, hn⟩ := h
  obtain ⟨n', hlow', hn'⟩ := ht
  refine ⟨m + 1, max (n - 1) n', fun k hk => ?_, fun k hk => ?_⟩
  · by_cases hk' : k < n + m
    · exact hlow k hk'
    · obtain ⟨k, rfl⟩ : ∃ k', k = k' + m := ⟨k - m, by omega⟩
      rw [hn k (by omega)]
      cases k with
      | zero => exact h0
      | succ k =>
        rw [hs]
        exact (hlow' k (by omega)).bind _
  · rw [show k + (m + 1) = (k + 1) + m by omega, hn (k + 1) (by omega), hs, hn' k (by omega)]
    rfl

/-! ## What follows a phrase -/

theorem eat?_here (s : Symbol) (o : Nat) (ts : List Token) : eat? s (⟨.symbol s, o⟩ :: ts) = some ts :=
  if_pos rfl

theorem eat?_other {s s' : Symbol} {o : Nat} {ts : List Token} (h : s' ≠ s) :
    eat? s (⟨.symbol s', o⟩ :: ts) = none :=
  if_neg h

theorem expect_here (s : Symbol) (o : Nat) (ts : List Token) :
    expect s (⟨.symbol s, o⟩ :: ts) = .ok ts := by
  simp only [expect, eat?_here]

theorem eat?_none {s : Symbol} {ts : List Token} (h : peek ts ≠ .symbol s) : eat? s ts = none := by
  unfold eat?
  split
  · split
    · rename_i hs; subst hs; exact absurd rfl h
    · rfl
  · rfl

theorem eat?_none_of_grip {s : Symbol} {ts : List Token} (h : grip (peek ts) < grip (.symbol s)) :
    eat? s ts = none :=
  eat?_none fun he => by rw [he] at h; omega

theorem eat?_none_of_lead {s : Symbol} {ts : List Token} (h : 0 < lead (peek ts))
    (hs : lead (.symbol s) = 0) : eat? s ts = none :=
  eat?_none fun he => by rw [he] at h; omega

namespace Level

variable {below : Level} {ts : List Token} {e : Expr}

theorem orRest_stop (h : grip (peek ts) < 2) : below.orRest e ts = .ok (e, ts) := by
  unfold orRest
  split
  · simp [peek, grip] at h
  · rfl

theorem andRest_stop (h : grip (peek ts) < 3) : below.andRest e ts = .ok (e, ts) := by
  unfold andRest
  split
  · simp [peek, grip] at h
  · rfl

theorem sumRest_stop (h : grip (peek ts) < 5) : below.sumRest e ts = .ok (e, ts) := by
  unfold sumRest
  split <;> first | rfl | simp [peek, grip] at h

theorem termRest_stop (h : grip (peek ts) < 6) : below.termRest e ts = .ok (e, ts) := by
  unfold termRest
  split <;> first | rfl | simp [peek, grip] at h

theorem postfixRest_stop (h : grip (peek ts) < 8) : below.postfixRest e ts = .ok (e, ts) := by
  unfold postfixRest
  split <;> first | rfl | simp [peek, grip] at h

theorem relation?_stop (h : grip (peek ts) < 4) : relation? ts = none := by
  unfold relation?
  split <;> first | rfl | simp [peek, grip] at h

theorem relation?_spelled {r : Relation} {rest : List Token} (h : Spelled (spelling r) ts rest)
    (hl : lead (peek rest) ≤ 2) : relation? ts = some (r, rest) := by
  cases r <;> rcases h with _ | ⟨_ | ⟨_ | _⟩⟩ <;> simp only [relation?]
  split <;> simp_all [peek, lead]

end Level

theorem strings_stop {ts : List Token} (h : grip (peek ts) < 9) : strings ts = ("", ts) := by
  unfold strings
  split
  · simp [peek, grip] at h
  · rfl

/-! ## The phrases -/

/-- What a derivation of a phrase says about its reader. -/
def Complete : (p : Phrase) → List Token → p.Tree → List Token → Prop
  | .conditional, ts, e, rest =>
    grip (peek rest) < 1 → Settles (fun k => (level k).conditional ts) (e, rest)
  | .disjunction, ts, e, rest =>
    grip (peek rest) < 3 → Passes (fun k => (level k).disjunction ts) fun k => (level k).orRest e rest
  | .conjunction, ts, e, rest =>
    grip (peek rest) < 4 → Passes (fun k => (level k).conjunction ts) fun k => (level k).andRest e rest
  | .negation, ts, e, rest =>
    grip (peek rest) < 4 → Settles (fun k => (level k).negationHere ts) (e, rest)
  | .comparison, ts, e, rest =>
    grip (peek rest) < 4 → Settles (fun k => (level k).comparison ts) (e, rest)
  | .sum, ts, e, rest =>
    grip (peek rest) < 6 → Passes (fun k => (level k).sum ts) fun k => (level k).sumRest e rest
  | .term, ts, e, rest =>
    grip (peek rest) < 7 → Passes (fun k => (level k).term ts) fun k => (level k).termRest e rest
  | .signed, ts, e, rest =>
    grip (peek rest) < 7 → Settles (fun k => (level k).signedHere ts) (e, rest)
  | .power, ts, e, rest =>
    grip (peek rest) < 7 → Settles (fun k => (level k).power ts) (e, rest)
  | .postfixed, ts, e, rest =>
    grip (peek rest) < 9 →
      Passes (fun k => (level k).postfixed ts) fun k => (level k).postfixRest e rest
  | .atom, ts, e, rest => grip (peek rest) < 9 → Settles (fun k => (level k).atom ts) (e, rest)
  | .links, ts, ls, rest =>
    grip (peek rest) < 4 → ∀ n, ts.length ≤ n → Settles (fun k => (level k).links n ts) (ls, rest)
  | .strings, ts, s, rest =>
    grip (peek rest) < 9 →
      ∃ t o ts', ts = ⟨.str t, o⟩ :: ts' ∧ t ++ (strings ts').1 = s ∧ (strings ts').2 = rest
  | .bound, ts, none, rest => ts = rest
  | .bound, ts, some e, rest =>
    grip (peek rest) < 1 →
      0 < lead (peek ts) ∧ Settles (fun k => (level k).conditional ts) (e, rest)
  | .items close, ts, es, rest =>
    close = .rparen ∨ close = .rbracket → ∀ n, ts.length ≤ n →
      Settles (fun k => sequence (level k).conditional close n ts) (es, rest)
  | .entries, ts, kvs, rest =>
    ∀ n, ts.length ≤ n → Settles (fun k => entries (level k).conditional n ts) (kvs, rest)

section
variable {ts ts₁ ts₂ rest : List Token} {e a b : Expr} {o o₁ o₂ : Nat}

theorem settled_disjunction (h : Complete .disjunction ts e rest) (hg : grip (peek rest) < 2) :
    Settles (fun k => (level k).disjunction ts) (e, rest) :=
  (h (by omega)).settles (by simpa only [Level.orRest_stop hg] using Settles.ok _)

theorem settled_conjunction (h : Complete .conjunction ts e rest) (hg : grip (peek rest) < 3) :
    Settles (fun k => (level k).conjunction ts) (e, rest) :=
  (h (by omega)).settles (by simpa only [Level.andRest_stop hg] using Settles.ok _)

theorem settled_sum (h : Complete .sum ts e rest) (hg : grip (peek rest) < 5) :
    Settles (fun k => (level k).sum ts) (e, rest) :=
  (h (by omega)).settles (by simpa only [Level.sumRest_stop hg] using Settles.ok _)

theorem settled_term (h : Complete .term ts e rest) (hg : grip (peek rest) < 6) :
    Settles (fun k => (level k).term ts) (e, rest) :=
  (h (by omega)).settles (by simpa only [Level.termRest_stop hg] using Settles.ok _)

theorem settled_postfixed (h : Complete .postfixed ts e rest) (hg : grip (peek rest) < 8) :
    Settles (fun k => (level k).postfixed ts) (e, rest) :=
  (h (by omega)).settles (by simpa only [Level.postfixRest_stop hg] using Settles.ok _)

/-! ### From the choice to `not` -/

theorem complete_disjunction (h : Complete .disjunction ts e rest) : Complete .conditional ts e rest := by
  intro hg
  refine Settles.above (r := fun k => (level k).conditionalHere ts) ?_ ⟨_, rfl⟩ fun _ => rfl
  refine (settled_disjunction h (by omega)).bind ?_
  simp only [eat?_none_of_grip (s := .kwIf) hg]
  exact .ok _

theorem complete_choice {c no : Expr} (hy : Complete .disjunction ts e (⟨.symbol .kwIf, o₁⟩ :: ts₁))
    (hc : Complete .disjunction ts₁ c (⟨.symbol .kwElse, o₂⟩ :: ts₂))
    (hn : Complete .conditional ts₂ no rest) :
    Complete .conditional ts (.conditional c e no) rest := by
  intro hg
  refine Settles.above (r := fun k => (level k).conditionalHere ts) ?_ ⟨_, rfl⟩ fun _ => rfl
  refine (settled_disjunction hy (by simp [peek, grip])).bind ?_
  simp only [eat?_here]
  refine (settled_disjunction hc (by simp [peek, grip])).bind ?_
  simp only [expect_here]
  exact (hn hg).bind (.ok _)

theorem complete_conjunction (h : Complete .conjunction ts e rest) :
    Complete .disjunction ts e rest := by
  intro hg
  exact (settled_conjunction h hg).passes _

theorem complete_or (ha : Complete .disjunction ts a (⟨.symbol .kwOr, o⟩ :: ts₁))
    (hb : Complete .conjunction ts₁ b rest) : Complete .disjunction ts (.or a b) rest := by
  intro hg
  exact (ha (by simp [peek, grip])).turn (f := fun k x => (level k).orRest (.or a x.1) x.2) ⟨_, rfl⟩
    (fun _ => rfl) (settled_conjunction hb hg)

theorem complete_negation (h : Complete .negation ts e rest) : Complete .conjunction ts e rest := by
  intro hg
  exact (h hg).passes _

theorem complete_and (ha : Complete .conjunction ts a (⟨.symbol .kwAnd, o⟩ :: ts₁))
    (hb : Complete .negation ts₁ b rest) : Complete .conjunction ts (.and a b) rest := by
  intro hg
  exact (ha (by simp [peek, grip])).turn (f := fun k x => (level k).andRest (.and a x.1) x.2) ⟨_, rfl⟩
    (fun _ => rfl) (hb hg)

theorem complete_comparison (hd : Derives .comparison ts e rest) (h : Complete .comparison ts e rest) :
    Complete .negation ts e rest := by
  intro hg
  have hl := (hd.leads (by decide)).2
  have hs : ∀ below : Level, below.negationHere ts = below.comparison ts := by
    intro below
    unfold Level.negationHere
    split
    · simp [peek, lead, Phrase.lead] at hl
    · rfl
  simpa only [hs] using h hg

theorem complete_not (h : Complete .negation ts e rest) :
    Complete .negation (⟨.symbol .kwNot, o⟩ :: ts) (.unary .not e) rest := by
  intro hg
  have hn : Settles (fun k => (level k).negation ts) (e, rest) := (h hg).above ⟨_, rfl⟩ fun _ => rfl
  exact hn.bind (.ok _)

/-! ### Comparisons -/

theorem links_stop {below : Level} (hg : grip (peek rest) < 4) (n : Nat) :
    below.links n rest = .ok ([], rest) := by
  cases n with
  | zero => rfl
  | succ n => simp only [Level.links, Level.relation?_stop hg]

theorem complete_sum (h : Complete .sum ts e rest) : Complete .comparison ts e rest := by
  intro hg
  refine (settled_sum h (by omega)).bind ?_
  simp only [links_stop hg]
  exact .ok _

theorem complete_compare {ls : List (Relation × Expr)} (hls : Derives .links ts₁ ls rest)
    (ha : Complete .sum ts a ts₁) (h : Complete .links ts₁ ls rest) :
    Complete .comparison ts (.compare a ls) rest := by
  intro hg
  have hg₁ := hls.grip_links
  refine (settled_sum ha (by omega)).bind ?_
  refine (h hg _ (Nat.le_refl _)).bind ?_
  cases ls with
  | nil => cases hls
  | cons l ls => exact .ok _

/-- A link and what the chain goes on with. -/
theorem settles_link {r : Relation} {ls : List (Relation × Expr)} {n : Nat}
    (hr : Spelled (spelling r) ts ts₁) (hd : Derives .sum ts₁ e ts₂) (he : Complete .sum ts₁ e ts₂)
    (hg : grip (peek ts₂) < 5) (hn : ts.length ≤ n)
    (hls : ∀ n, ts₂.length ≤ n → Settles (fun k => (level k).links n ts₂) (ls, rest)) :
    Settles (fun k => (level k).links n ts) ((r, e) :: ls, rest) := by
  have h₁ := hr.length_le
  have h₂ := hd.length_le
  simp only [Phrase.least] at h₂
  obtain ⟨n, rfl⟩ : ∃ n', n = n' + 1 := ⟨n - 1, by omega⟩
  simp only [Level.links, Level.relation?_spelled hr (hd.leads (by decide)).2]
  exact (settled_sum he hg).bind ((hls n (by omega)).bind (.ok _))

theorem complete_lastLink {r : Relation} (hr : Spelled (spelling r) ts ts₁)
    (hd : Derives .sum ts₁ e rest) (he : Complete .sum ts₁ e rest) :
    Complete .links ts [(r, e)] rest := by
  intro hg n hn
  refine settles_link hr hd he (by omega) hn fun n _ => ?_
  simpa only [links_stop hg] using Settles.ok _

theorem complete_link {r : Relation} {ls : List (Relation × Expr)}
    (hr : Spelled (spelling r) ts ts₁) (hd : Derives .sum ts₁ e ts₂) (he : Complete .sum ts₁ e ts₂)
    (hls : Derives .links ts₂ ls rest) (h : Complete .links ts₂ ls rest) :
    Complete .links ts ((r, e) :: ls) rest := by
  intro hg n hn
  have hg₂ := hls.grip_links
  exact settles_link hr hd he (by omega) hn (h hg)

/-! ### Arithmetic -/

theorem complete_term (h : Complete .term ts e rest) : Complete .sum ts e rest := by
  intro hg
  exact (settled_term h hg).passes _

theorem complete_add {s : Symbol} {op : BinaryOp} (hs : sumOp? s = some op)
    (ha : Complete .sum ts a (⟨.symbol s, o⟩ :: ts₁)) (hb : Complete .term ts₁ b rest) :
    Complete .sum ts (.binary op a b) rest := by
  intro hg
  have hstep : ∀ below : Level,
      below.sumRest a (⟨.symbol s, o⟩ :: ts₁) = below.sumRight op a ts₁ := by
    intro below
    cases s <;> cases hs <;> rfl
  have hp := ha (by simp only [peek, grip_sumOp hs]; decide)
  simp only [hstep] at hp
  exact hp.turn (f := fun k x => (level k).sumRest (.binary op a x.1) x.2) ⟨_, rfl⟩ (fun _ => rfl)
    (settled_term hb hg)

theorem complete_signed (h : Complete .signed ts e rest) : Complete .term ts e rest := by
  intro hg
  exact (h hg).passes _

theorem complete_multiply {s : Symbol} {op : BinaryOp} (hs : termOp? s = some op)
    (ha : Complete .term ts a (⟨.symbol s, o⟩ :: ts₁)) (hb : Complete .signed ts₁ b rest) :
    Complete .term ts (.binary op a b) rest := by
  intro hg
  have hstep : ∀ below : Level,
      below.termRest a (⟨.symbol s, o⟩ :: ts₁) = below.termRight op a ts₁ := by
    intro below
    cases s <;> cases hs <;> rfl
  have hp := ha (by simp only [peek, grip_termOp hs]; decide)
  simp only [hstep] at hp
  exact hp.turn (f := fun k x => (level k).termRest (.binary op a x.1) x.2) ⟨_, rfl⟩ (fun _ => rfl)
    (hb hg)

theorem complete_power (hd : Derives .power ts e rest) (h : Complete .power ts e rest) :
    Complete .signed ts e rest := by
  intro hg
  have hl := (hd.leads (by decide)).2
  have hs : ∀ below : Level, below.signedHere ts = below.power ts := by
    intro below
    unfold Level.signedHere
    split
    · simp [peek, lead, Phrase.lead] at hl
    · simp [peek, lead, Phrase.lead] at hl
    · rfl
  simpa only [hs] using h hg

theorem settled_signed (h : Complete .signed ts e rest) (hg : grip (peek rest) < 7) :
    Settles (fun k => (level k).signed ts) (e, rest) :=
  (h hg).above ⟨_, rfl⟩ fun _ => rfl

theorem complete_sign {s : Symbol} {op : UnaryOp} (hs : sign? s = some op)
    (h : Complete .signed ts e rest) :
    Complete .signed (⟨.symbol s, o⟩ :: ts) (.unary op e) rest := by
  intro hg
  have hstep : ∀ below : Level, below.signedHere (⟨.symbol s, o⟩ :: ts) =
      below.signed ts >>= fun x => .ok (.unary op x.1, x.2) := by
    intro below
    cases s <;> cases hs <;> rfl
  simp only [hstep]
  exact (settled_signed h hg).bind (.ok _)

theorem complete_postfixed (h : Complete .postfixed ts e rest) : Complete .power ts e rest := by
  intro hg
  refine (settled_postfixed h (by omega)).bind ?_
  simp only [eat?_none_of_grip (s := .starStar) hg]
  exact .ok _

theorem complete_raise (ha : Complete .postfixed ts a (⟨.symbol .starStar, o⟩ :: ts₁))
    (hb : Complete .signed ts₁ b rest) : Complete .power ts (.binary .pow a b) rest := by
  intro hg
  refine (settled_postfixed ha (by simp [peek, grip])).bind ?_
  simp only [eat?_here]
  exact (settled_signed hb hg).bind (.ok _)

/-! ### Subscripts, slices and members -/

theorem complete_atom (h : Complete .atom ts e rest) : Complete .postfixed ts e rest := by
  intro hg
  exact (h hg).passes _

theorem complete_subscript (ha : Complete .postfixed ts a (⟨.symbol .lbracket, o⟩ :: ts₁))
    (hs : Settles (fun k => (level k).subscriptHere a ts₁) (e, rest)) :
    Complete .postfixed ts e rest := by
  intro _
  exact (ha (by simp [peek, grip])).turn (f := fun k x => (level k).postfixRest x.1 x.2) ⟨_, rfl⟩
    (fun _ => rfl) hs

theorem complete_index {i : Expr} (hd : Derives .conditional ts₁ i (⟨.symbol .rbracket, o₂⟩ :: rest))
    (ha : Complete .postfixed ts a (⟨.symbol .lbracket, o₁⟩ :: ts₁))
    (hi : Complete .conditional ts₁ i (⟨.symbol .rbracket, o₂⟩ :: rest)) :
    Complete .postfixed ts (.index a i) rest := by
  refine complete_subscript ha ?_
  simp only [Level.subscriptHere, eat?_none_of_lead (s := .colon) (hd.leads (by decide)).1 rfl]
  refine (hi (by simp [peek, grip])).bind ?_
  simp only [eat?_other (by decide : Symbol.rbracket ≠ .colon), expect_here]
  exact .ok _

theorem settles_bound {b : Option Expr} (h : Complete .bound ts b rest)
    (hr : peek rest = .symbol .colon ∨ peek rest = .symbol .rbracket) :
    Settles (fun k => (level k).bound ts) (b, rest) := by
  cases b with
  | none =>
    obtain rfl : ts = rest := h
    have hb : ∀ below : Level, below.bound ts = .ok (none, ts) := by
      intro below
      unfold Level.bound
      split
      · rfl
      · rfl
      · rename_i h₁ h₂
        cases ts with
        | nil => simp [peek] at hr
        | cons t ts =>
          obtain ⟨kind, o⟩ := t
          rcases hr with rfl | rfl
          · exact absurd rfl (h₁ _ _)
          · exact absurd rfl (h₂ _ _)
    simpa only [hb] using Settles.ok _
  | some e =>
    obtain ⟨hl, hs⟩ := h (by rcases hr with hr | hr <;> simp [hr, grip])
    have hb : ∀ below : Level, below.bound ts =
        below.conditional ts >>= fun x => .ok (some x.1, x.2) := by
      intro below
      unfold Level.bound
      split
      · simp [peek, lead] at hl
      · simp [peek, lead] at hl
      · rfl
    simp only [hb]
    exact hs.bind (.ok _)

/-- What stands before the first `:` of a slice. -/
theorem settles_start {b : Option Expr} (h : Complete .bound ts b (⟨.symbol .colon, o⟩ :: ts₁))
    (hs : Settles (fun k => (level k).sliceRest a b ts₁) (e, rest)) :
    Settles (fun k => (level k).subscriptHere a ts) (e, rest) := by
  cases b with
  | none =>
    obtain rfl : ts = ⟨.symbol .colon, o⟩ :: ts₁ := h
    simpa only [Level.subscriptHere, eat?_here] using hs
  | some i =>
    obtain ⟨hl, hi⟩ := h (by simp [peek, grip])
    simp only [Level.subscriptHere, eat?_none_of_lead (s := .colon) hl rfl]
    refine hi.bind ?_
    simpa only [eat?_here] using hs

theorem complete_slice {start stop : Option Expr} {o₃ : Nat}
    (ha : Complete .postfixed ts a (⟨.symbol .lbracket, o₁⟩ :: ts₁))
    (hstart : Complete .bound ts₁ start (⟨.symbol .colon, o₂⟩ :: ts₂))
    (hstop : Complete .bound ts₂ stop (⟨.symbol .rbracket, o₃⟩ :: rest)) :
    Complete .postfixed ts (.slice a start stop none) rest := by
  refine complete_subscript ha (settles_start hstart ?_)
  refine (settles_bound hstop (Or.inr rfl)).bind ?_
  simp only [eat?_other (by decide : Symbol.rbracket ≠ .colon)]
  refine (Settles.ok _).bind ?_
  simp only [expect_here]
  exact .ok _

theorem complete_steppedSlice {start stop step : Option Expr} {ts₃ : List Token} {o₃ o₄ : Nat}
    (ha : Complete .postfixed ts a (⟨.symbol .lbracket, o₁⟩ :: ts₁))
    (hstart : Complete .bound ts₁ start (⟨.symbol .colon, o₂⟩ :: ts₂))
    (hstop : Complete .bound ts₂ stop (⟨.symbol .colon, o₃⟩ :: ts₃))
    (hstep : Complete .bound ts₃ step (⟨.symbol .rbracket, o₄⟩ :: rest)) :
    Complete .postfixed ts (.slice a start stop step) rest := by
  refine complete_subscript ha (settles_start hstart ?_)
  refine (settles_bound hstop (Or.inl rfl)).bind ?_
  simp only [eat?_here]
  refine (settles_bound hstep (Or.inr rfl)).bind ?_
  simp only [expect_here]
  exact .ok _

theorem memberHere_name {name : String} (hg : grip (peek ts) < 9) :
    memberHere a (⟨.ident name, o⟩ :: ts) = .ok (.member a name, ts) := by
  simp only [memberHere, eat?_none_of_grip (s := .lparen) hg]

theorem complete_member {name : String}
    (ha : Complete .postfixed ts a (⟨.symbol .dot, o₁⟩ :: ⟨.ident name, o₂⟩ :: rest)) :
    Complete .postfixed ts (.member a name) rest := by
  intro hg
  exact (ha (by simp [peek, grip])).turn (f := fun k x => (level k).postfixRest x.1 x.2)
    (t := fun _ => memberHere a (⟨.ident name, o₂⟩ :: rest)) ⟨_, rfl⟩ (fun _ => rfl)
    (by simpa only [memberHere_name hg] using Settles.ok _)

/-! ### Atoms -/

theorem complete_float {x : Float} (hx : x.isFinite = true) :
    Complete .atom (⟨.float x, o⟩ :: ts) (.literal (.float x)) ts := by
  intro _
  simpa only [Level.atom, hx, if_true] using Settles.ok _

theorem complete_text {s : String} (h : Complete .strings ts s rest) :
    Complete .atom ts (.literal (.str s)) rest := by
  intro hg
  obtain ⟨t, o, ts', rfl, rfl, rfl⟩ := h hg
  exact .ok _

theorem complete_constant {s : Symbol} {v : Value} (hs : constant? s = some v) :
    Complete .atom (⟨.symbol s, o⟩ :: ts) (.literal v) ts := by
  intro _
  cases s <;> cases hs <;> exact .ok _

theorem atom_name (below : Level) {name : String} (hg : grip (peek ts) < 9) :
    below.atom (⟨.ident name, o⟩ :: ts) = .ok (.name name, ts) := by
  simp only [Level.atom, eat?_none_of_grip (s := .lparen) hg]

theorem complete_name {name : String} : Complete .atom (⟨.ident name, o⟩ :: ts) (.name name) ts := by
  intro hg
  simpa only [atom_name _ hg] using Settles.ok _

theorem ofName?_name (f : Builtin) : Builtin.ofName? f.name = some f := by cases f <;> rfl

theorem complete_call {f : Builtin} {args : List Expr} (h : Complete (.items .rparen) ts args rest) :
    Complete .atom (⟨.ident f.name, o₁⟩ :: ⟨.symbol .lparen, o₂⟩ :: ts) (.call f args) rest := by
  intro _
  simp only [Level.atom, eat?_here, ofName?_name]
  exact (h (Or.inl rfl) _ (Nat.le_refl _)).bind (.ok _)

theorem complete_paren (h : Complete .conditional ts e (⟨.symbol .rparen, o₂⟩ :: rest)) :
    Complete .atom (⟨.symbol .lparen, o₁⟩ :: ts) e rest := by
  intro _
  refine (h (by simp [peek, grip])).bind ?_
  simp only [expect_here]
  exact .ok _

theorem complete_list {es : List Expr} (h : Complete (.items .rbracket) ts es rest) :
    Complete .atom (⟨.symbol .lbracket, o⟩ :: ts) (.list es) rest := by
  intro _
  exact (h (Or.inr rfl) _ (Nat.le_refl _)).bind (.ok _)

theorem complete_dict {kvs : List (Expr × Expr)} (h : Complete .entries ts kvs rest) :
    Complete .atom (⟨.symbol .lbrace, o⟩ :: ts) (.dict kvs) rest := by
  intro _
  exact (h _ (Nat.le_refl _)).bind (.ok _)

theorem complete_lastString {s : String} : Complete .strings (⟨.str s, o⟩ :: ts) s ts := by
  intro hg
  refine ⟨s, o, ts, rfl, ?_⟩
  simp [strings_stop hg]

theorem complete_string {s t : String} (h : Complete .strings ts t rest) :
    Complete .strings (⟨.str s, o⟩ :: ts) (s ++ t) rest := by
  intro hg
  obtain ⟨t', o', ts', rfl, rfl, rfl⟩ := h hg
  exact ⟨s, o, _, rfl, rfl, rfl⟩

/-! ### Sequences -/

theorem complete_noItem {close : Symbol} :
    Complete (.items close) (⟨.symbol close, o⟩ :: ts) [] ts := by
  intro _ n hn
  obtain ⟨n, rfl⟩ : ∃ n', n = n' + 1 := ⟨n - 1, by simp only [List.length_cons] at hn; omega⟩
  simpa only [sequence, eat?_here] using Settles.ok _

/-- An item and what the sequence goes on with. -/
theorem settles_item {close : Symbol} {x : List Expr × List Token} {n : Nat}
    (hc : close = .rparen ∨ close = .rbracket) (hd : Derives .conditional ts e ts₁)
    (he : Complete .conditional ts e ts₁) (hg : grip (peek ts₁) < 1) (hn : ts.length ≤ n)
    (hrest : ∀ n, ts₁.length ≤ n → Settles (fun k => match eat? .comma ts₁ with
      | some ts => sequence (level k).conditional close n ts >>= fun y => .ok (e :: y.1, y.2)
      | none => expect close ts₁ >>= fun ts => .ok ([e], ts)) x) :
    Settles (fun k => sequence (level k).conditional close n ts) x := by
  have hlen := hd.length_le
  simp only [Phrase.least] at hlen
  obtain ⟨n, rfl⟩ : ∃ n', n = n' + 1 := ⟨n - 1, by omega⟩
  have hl : lead (.symbol close) = 0 := by rcases hc with rfl | rfl <;> rfl
  simp only [sequence, eat?_none_of_lead (hd.leads (by decide)).1 hl]
  exact (he hg).bind (hrest n (by omega))

theorem complete_lastItem {close : Symbol} (hd : Derives .conditional ts e (⟨.symbol close, o⟩ :: rest))
    (he : Complete .conditional ts e (⟨.symbol close, o⟩ :: rest)) :
    Complete (.items close) ts [e] rest := by
  intro hc n hn
  have hg : grip (.symbol close) = 0 := by rcases hc with rfl | rfl <;> rfl
  have hne : peek (⟨.symbol close, o⟩ :: rest) ≠ .symbol .comma := by
    rcases hc with rfl | rfl <;> simp [peek]
  refine settles_item hc hd he (by simp only [peek]; omega) hn fun n _ => ?_
  simp only [eat?_none hne, expect_here]
  exact .ok _

theorem complete_item {close : Symbol} {es : List Expr}
    (hd : Derives .conditional ts e (⟨.symbol .comma, o⟩ :: ts₁))
    (he : Complete .conditional ts e (⟨.symbol .comma, o⟩ :: ts₁))
    (h : Complete (.items close) ts₁ es rest) : Complete (.items close) ts (e :: es) rest := by
  intro hc n hn
  refine settles_item hc hd he (by simp [peek, grip]) hn fun n hlen => ?_
  simp only [eat?_here]
  exact (h hc n (by simp only [List.length_cons] at hlen; omega)).bind (.ok _)

theorem complete_noEntry : Complete .entries (⟨.symbol .rbrace, o⟩ :: ts) [] ts := by
  intro n hn
  obtain ⟨n, rfl⟩ : ∃ n', n = n' + 1 := ⟨n - 1, by simp only [List.length_cons] at hn; omega⟩
  simpa only [entries, eat?_here] using Settles.ok _

/-- An entry and what the dictionary goes on with. -/
theorem settles_entry {k v : Expr} {x : List (Expr × Expr) × List Token} {n : Nat}
    (hd : Derives .conditional ts k (⟨.symbol .colon, o⟩ :: ts₁)) (hd' : Derives .conditional ts₁ v ts₂)
    (hk : Complete .conditional ts k (⟨.symbol .colon, o⟩ :: ts₁)) (hv : Complete .conditional ts₁ v ts₂)
    (hg : grip (peek ts₂) < 1) (hn : ts.length ≤ n)
    (hrest : ∀ n, ts₂.length ≤ n → Settles (fun l => match eat? .comma ts₂ with
      | some ts => entries (level l).conditional n ts >>= fun y => .ok ((k, v) :: y.1, y.2)
      | none => expect .rbrace ts₂ >>= fun ts => .ok ([(k, v)], ts)) x) :
    Settles (fun l => entries (level l).conditional n ts) x := by
  have hlen := hd.length_le
  have hlen' := hd'.length_le
  simp only [Phrase.least, List.length_cons] at hlen hlen'
  obtain ⟨n, rfl⟩ : ∃ n', n = n' + 1 := ⟨n - 1, by omega⟩
  simp only [entries, eat?_none_of_lead (s := .rbrace) (hd.leads (by decide)).1 rfl]
  refine (hk (by simp [peek, grip])).bind ?_
  simp only [expect_here]
  exact (Settles.ok ts₁).bind ((hv hg).bind (hrest n (by omega)))

theorem complete_lastEntry {k v : Expr} (hd : Derives .conditional ts k (⟨.symbol .colon, o₁⟩ :: ts₁))
    (hd' : Derives .conditional ts₁ v (⟨.symbol .rbrace, o₂⟩ :: rest))
    (hk : Complete .conditional ts k (⟨.symbol .colon, o₁⟩ :: ts₁))
    (hv : Complete .conditional ts₁ v (⟨.symbol .rbrace, o₂⟩ :: rest)) :
    Complete .entries ts [(k, v)] rest := by
  intro n hn
  refine settles_entry hd hd' hk hv (by simp [peek, grip]) hn fun n _ => ?_
  simp only [eat?_other (by decide : Symbol.rbrace ≠ .comma), expect_here]
  exact .ok _

theorem complete_entry {k v : Expr} {kvs : List (Expr × Expr)}
    (hd : Derives .conditional ts k (⟨.symbol .colon, o₁⟩ :: ts₁))
    (hd' : Derives .conditional ts₁ v (⟨.symbol .comma, o₂⟩ :: ts₂))
    (hk : Complete .conditional ts k (⟨.symbol .colon, o₁⟩ :: ts₁))
    (hv : Complete .conditional ts₁ v (⟨.symbol .comma, o₂⟩ :: ts₂))
    (h : Complete .entries ts₂ kvs rest) : Complete .entries ts ((k, v) :: kvs) rest := by
  intro n hn
  refine settles_entry hd hd' hk hv (by simp [peek, grip]) hn fun n hlen => ?_
  simp only [eat?_here]
  exact (h n (by simp only [List.length_cons] at hlen; omega)).bind (.ok _)

end

theorem complete {p : Phrase} {ts rest : List Token} {t : p.Tree} (h : Derives p ts t rest) :
    Complete p ts t rest := by
  induction h with
  | disjunction _ ih => exact complete_disjunction ih
  | choice _ _ _ ihy ihc ihn => exact complete_choice ihy ihc ihn
  | conjunction _ ih => exact complete_conjunction ih
  | or _ _ iha ihb => exact complete_or iha ihb
  | negation _ ih => exact complete_negation ih
  | and _ _ iha ihb => exact complete_and iha ihb
  | comparison hd ih => exact complete_comparison hd ih
  | not _ ih => exact complete_not ih
  | sum _ ih => exact complete_sum ih
  | compare _ hls iha ihls => exact complete_compare hls iha ihls
  | lastLink hr hd ih => exact complete_lastLink hr hd ih
  | link hr hd hls ih ihls => exact complete_link hr hd ih hls ihls
  | term _ ih => exact complete_term ih
  | add hs _ _ iha ihb => exact complete_add hs iha ihb
  | signed _ ih => exact complete_signed ih
  | multiply hs _ _ iha ihb => exact complete_multiply hs iha ihb
  | power hd ih => exact complete_power hd ih
  | sign hs _ ih => exact complete_sign hs ih
  | postfixed _ ih => exact complete_postfixed ih
  | raise _ _ iha ihb => exact complete_raise iha ihb
  | atom _ ih => exact complete_atom ih
  | index _ hi iha ihi => exact complete_index hi iha ihi
  | slice _ _ _ iha ihs iht => exact complete_slice iha ihs iht
  | steppedSlice _ _ _ _ iha ihs iht ihu => exact complete_steppedSlice iha ihs iht ihu
  | member _ ih => exact complete_member ih
  | noBound => exact rfl
  | aBound hd ih => exact fun hg => ⟨(hd.leads (by decide)).1, ih hg⟩
  | int => exact fun _ => .ok _
  | float hx => exact complete_float hx
  | text _ ih => exact complete_text ih
  | constant hs => exact complete_constant hs
  | name => exact complete_name
  | call _ ih => exact complete_call ih
  | paren _ ih => exact complete_paren ih
  | list _ ih => exact complete_list ih
  | dict _ ih => exact complete_dict ih
  | lastString => exact complete_lastString
  | string _ ih => exact complete_string ih
  | noItem => exact complete_noItem
  | lastItem hd ih => exact complete_lastItem hd ih
  | item hd _ ih ihs => exact complete_item hd ih ihs
  | noEntry => exact complete_noEntry
  | lastEntry hd hd' ihk ihv => exact complete_lastEntry hd hd' ihk ihv
  | entry hd hd' _ ihk ihv ihs => exact complete_entry hd hd' ihk ihv ihs

/-- What the grammar derives nests some number of levels: with these it is accepted, with its tree,
and with fewer it is found too deep. -/
theorem spells_settles {ts : List Token} {e : Expr} (h : Spells ts e) :
    Settles (fun k => expressionWithin k ts) e := by
  obtain ⟨rest, hd, hp⟩ := h
  refine (complete hd (by simp [hp, grip])).bind ?_
  simp only [hp]
  exact .ok _

theorem expression_complete {ts : List Token} {e : Expr} (h : Spells ts e) :
    expression ts = .ok e ∨ Deep (expression ts) := by
  obtain ⟨n, hlow, hn⟩ := spells_settles h
  by_cases hk : n ≤ maxDepth
  · exact Or.inl (hn maxDepth hk)
  · exact Or.inr (hlow maxDepth (by omega))

theorem spells_unique {ts : List Token} {e e' : Expr} (h : Spells ts e) (h' : Spells ts e') : e = e' := by
  obtain ⟨n, _, hn⟩ := spells_settles h
  obtain ⟨n', _, hn'⟩ := spells_settles h'
  have he := (hn (max n n') (by omega)).symm.trans (hn' (max n n') (by omega))
  cases he
  rfl

/-- More levels never change a tree. -/
theorem expressionWithin_mono {n m : Nat} {ts : List Token} {e : Expr} (hm : n ≤ m)
    (h : expressionWithin n ts = .ok e) : expressionWithin m ts = .ok e := by
  obtain ⟨k, hlow, hk⟩ := spells_settles (expressionWithin_sound h)
  by_cases hn : n < k
  · obtain ⟨o, ho⟩ := hlow n hn
    cases h.symm.trans ho
  · exact hk m (by omega)

end MockSchema.Parse

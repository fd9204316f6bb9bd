import Mathlib.Logic.Function.Basic
import ProximityNet.Proofs.Siblings

/-!
# What a visit may say to the backend

On a visit the backend is first asked about the candidates that are not linked yet, then told what
becomes of the links that are up, and then has the links that are down brought up.  A call that fails
ends the visit.

* `Rounds` — rounds one after another, up to the first that ends with a failed call;
* `Setting.Attempt`, `Setting.Turn`, `Setting.Opening` — a new link, a candidate, all candidates;
* `Setting.Renewal`, `Setting.Revival` — a link that is up, a link that is down;
* `Setting.Dialogue` — the whole visit;
* `Stops`, `Dialogue.stops` — only the last exchange may be a failed call;
* `Dialogue.step` — all exchanges are of one step;
* `Dialogue.lowers_or_raises` — links are taken down or brought up on a visit, never both;
* `Connection.Renewed`, `Dialogue.renewed` — what is up is shaped or taken down, unless a call fails.

What is said of a link is tied to the links themselves: a visit takes the `Links` of its pair from
one candidate to the next, and renews and revives those that it then finds.
-/

namespace ProximityNet

variable {σ α : Type}

namespace Exchange

/-- The step that an exchange belongs to. -/
def step : Exchange → Nat
  | announced (.stepStarting step _) | announced (.changesPending step _ _)
  | announced (.changesApplied step _ _) | performed (.finishStep step _) _ => step
  | announced (.adjusting site _ _ _) | asked site _ _ | performed (.create site _) _
  | performed (.raise site _ _) _ | performed (.lower site _ _) _
  | performed (.adjust site _ _ _) _ => site.step

/-- Whether a link was to be brought up. -/
def raises : Exchange → Bool
  | performed (.raise ..) _ => true
  | _ => false

end Exchange

/-- What is told of a link that is shaped, which is announced first, or taken down. -/
inductive Connection.Renewed (c : Connection) : List Exchange → Prop
  | shaped (site : LinkSite) (shaping : Shaping) (result : Except BackendError Unit) :
      Renewed c [.announced (.adjusting site c true shaping),
        .performed (.adjust site c true shaping) result]
  | lowered (site : LinkSite) (shaping : Shaping) (result : Except BackendError Unit) :
      Renewed c [.performed (.lower site c shaping) result]

/-! ### Failed calls -/

/-- No call has failed, or the last one has and no other. -/
inductive Stops : List Exchange → Bool → Prop
  | fine {l : List Exchange} (h : ∀ x ∈ l, x.failed = false) : Stops l false
  | failed {l : List Exchange} {x : Exchange} (h : ∀ y ∈ l, y.failed = false)
      (hx : x.failed = true) : Stops (l ++ [x]) true

namespace Stops

variable {l l' : List Exchange} {b : Bool}

theorem nil : Stops [] false := .fine fun _ hx => by cases hx

theorem append (h : Stops l false) (h' : Stops l' b) : Stops (l ++ l') b := by
  cases h with
  | fine hl =>
    cases h' with
    | fine hl' => exact .fine fun x hx => (List.mem_append.mp hx).elim (hl x) (hl' x)
    | failed hl' hx =>
      rw [← List.append_assoc]
      exact .failed (fun y hy => (List.mem_append.mp hy).elim (hl y) (hl' y)) hx

/-- Nothing comes after a failed call. -/
theorem last (h : Stops l b) {before after : List Exchange} {x : Exchange}
    (hl : l = before ++ x :: after) (hx : x.failed = true) : after = [] := by
  cases h with
  | fine hfine =>
    have hx' := hfine x (by rw [hl]; exact List.mem_append_right _ List.mem_cons_self)
    rw [hx] at hx'
    cases hx'
  | @failed l₀ y hfine hy =>
    by_contra hne
    have hbefore : l₀ = before ++ x :: after.dropLast := by
      have hdrop := congrArg List.dropLast hl
      rwa [List.dropLast_concat, List.dropLast_append_of_ne_nil (List.cons_ne_nil _ _),
        List.dropLast_cons_of_ne_nil hne] at hdrop
    have hx' := hfine x (by rw [hbefore]; exact List.mem_append_right _ List.mem_cons_self)
    rw [hx] at hx'
    cases hx'

end Stops

/-! ### Rounds -/

/-- Rounds for the items of a list, up to the first that ends with a failed call; the flag says whether
one does. -/
inductive Rounds (R : α → List Exchange → Bool → Prop) : List α → List Exchange → Bool → Prop
  | done : Rounds R [] [] false
  | stop {a : α} {rest : List α} {l : List Exchange} (h : R a l true) : Rounds R (a :: rest) l true
  | next {a : α} {rest : List α} {l l' : List Exchange} {b : Bool} (h : R a l false)
      (hrest : Rounds R rest l' b) : Rounds R (a :: rest) (l ++ l') b

namespace Rounds

variable {R : α → List Exchange → Bool → Prop} {P : Exchange → Prop} {as : List α}
  {l : List Exchange} {b : Bool}

theorem forall_mem (round : ∀ a l b, R a l b → ∀ x ∈ l, P x) (h : Rounds R as l b) :
    ∀ x ∈ l, P x := by
  induction h with
  | done => exact fun _ hx => by cases hx
  | stop h => exact round _ _ _ h
  | next h _ ih => exact fun x hx => (List.mem_append.mp hx).elim (round _ _ _ h x) (ih x)

theorem stops (round : ∀ a l b, R a l b → Stops l b) (h : Rounds R as l b) : Stops l b := by
  induction h with
  | done => exact .nil
  | stop h => exact round _ _ _ h
  | next h _ ih => exact (round _ _ _ h).append ih

/-- If no round fails there is one for each item. -/
theorem exists_of_mem (h : Rounds R as l false) {a : α} (ha : a ∈ as) :
    ∃ l', R a l' false ∧ l' <:+: l := by
  induction as generalizing l with
  | nil => cases ha
  | cons first rest ih =>
    cases h with
    | @next _ _ l₁ l₂ _ hfirst hrest =>
      rcases List.mem_cons.mp ha with rfl | ha
      · exact ⟨l₁, hfirst, (List.prefix_append l₁ l₂).isInfix⟩
      · obtain ⟨l', hl', hsub⟩ := ih hrest ha
        exact ⟨l', hl', hsub.trans (List.suffix_append l₁ l₂).isInfix⟩

end Rounds

/-! ### A visit -/

/-- The links of a pair of nodes, by their interfaces. -/
abbrev Links := InterfacePair → Option Connection

/-- The interfaces over which links are up, or down, each once. -/
structure Links.Lists (links : Links) (connected : Bool) (l : List InterfacePair) : Prop where
  nodup : l.Nodup
  mem : ∀ i, i ∈ l ↔ ∃ c, links i = some c ∧ c.connected = connected

/-- The connection that a visit asks the backend for, under some id. -/
def Visit.offered (v : Visit) (id : ConnectionId) (ix iy : Interface) : Connection :=
  .fresh id v.pair ⟨ix, iy⟩ v.kind v.distance v.step

/-- A link between the nodes of a visit over some interfaces, of the kind that it expects, or one to
the management node. -/
structure Visit.Owns (v : Visit) (i : InterfacePair) (c : Connection) : Prop where
  pair : c.pair = v.pair
  interfaces : c.interfaces = i
  kind : c.kind = v.kind ∨ c.kind = .management

/-- How an attempt to link two interfaces ends. -/
inductive Attempted where
  | refused
  /-- The link is up. -/
  | raised (c : Connection)
  | failed
deriving DecidableEq

namespace Setting

/-- An attempt to link two interfaces: the backend is asked, and if it accepts, the link is created
and brought up. -/
inductive Attempt (s : Setting σ) (v : Visit) (ix iy : Interface) :
    List Exchange → Attempted → Prop
  | startFailed (id : ConnectionId) (e : BackendError) :
      Attempt s v ix iy [.asked (v.site v.kind ix iy) (v.offered id ix iy) (.error e)] .failed
  | refused (id : ConnectionId) {answer : StartAnswer} (no : answer.accepted = false) :
      Attempt s v ix iy [.asked (v.site v.kind ix iy) (v.offered id ix iy) (.ok answer)] .refused
  | createFailed (id : ConnectionId) {answer : StartAnswer} (yes : answer.accepted = true)
      (e : BackendError) :
      Attempt s v ix iy [.asked (v.site v.kind ix iy) (v.offered id ix iy) (.ok answer),
        .performed (.create (v.site v.kind ix iy)
          ((v.offered id ix iy).accepted .none answer.switch)) (.error e)] .failed
  | raiseFailed (id : ConnectionId) {answer : StartAnswer} (yes : answer.accepted = true)
      (e : BackendError) :
      Attempt s v ix iy [.asked (v.site v.kind ix iy) (v.offered id ix iy) (.ok answer),
        .performed (.create (v.site v.kind ix iy)
          ((v.offered id ix iy).accepted .none answer.switch)) (.ok ()),
        .performed (.raise (v.site v.kind ix iy) ((v.offered id ix iy).accepted .none answer.switch)
          ((s.decide v.kind v.distance).shaping.fillFrom s.initial)) (.error e)] .failed
  | raised (id : ConnectionId) {answer : StartAnswer} (yes : answer.accepted = true) :
      Attempt s v ix iy [.asked (v.site v.kind ix iy) (v.offered id ix iy) (.ok answer),
        .performed (.create (v.site v.kind ix iy)
          ((v.offered id ix iy).accepted .none answer.switch)) (.ok ()),
        .performed (.raise (v.site v.kind ix iy) ((v.offered id ix iy).accepted .none answer.switch)
          ((s.decide v.kind v.distance).shaping.fillFrom s.initial)) (.ok ())]
        (.raised (((v.offered id ix iy).accepted .none answer.switch).raised v.distance
          ((s.decide v.kind v.distance).shaping.fillFrom s.initial)))

/-- The turn of a candidate: what is linked is passed over, and anything else is attempted.  Then come
the links as they are after it, unless it fails. -/
inductive Turn (s : Setting σ) (v : Visit) (links : Links) (ix iy : Interface) :
    List Exchange → Option Links → Prop
  | known (h : (links ⟨ix, iy⟩).isSome = true) : Turn s v links ix iy [] (some links)
  | refused (new : links ⟨ix, iy⟩ = none) {l : List Exchange} (h : s.Attempt v ix iy l .refused) :
      Turn s v links ix iy l (some links)
  | raised (new : links ⟨ix, iy⟩ = none) {l : List Exchange} {c : Connection}
      (h : s.Attempt v ix iy l (.raised c)) :
      Turn s v links ix iy l (some (Function.update links ⟨ix, iy⟩ (some c)))
  | failed (new : links ⟨ix, iy⟩ = none) {l : List Exchange} (h : s.Attempt v ix iy l .failed) :
      Turn s v links ix iy l none

/-- The candidates of a visit in their order, up to the first whose turn fails. -/
inductive Opening (s : Setting σ) (v : Visit) :
    Links → List (Interface × Interface) → List Exchange → Option Links → Prop
  | done {links : Links} : Opening s v links [] [] (some links)
  | stop {links : Links} {e : Interface × Interface} {rest : List (Interface × Interface)}
      {l : List Exchange} (h : s.Turn v links e.1 e.2 l none) : Opening s v links (e :: rest) l none
  | next {links links' : Links} {after : Option Links} {e : Interface × Interface}
      {rest : List (Interface × Interface)} {l l' : List Exchange}
      (h : s.Turn v links e.1 e.2 l (some links')) (hrest : Opening s v links' rest l' after) :
      Opening s v links (e :: rest) (l ++ l') after

/-- The link over some interfaces is up: in range it is shaped, out of range it is taken down, and only
one to the management node is passed over. -/
inductive Renewal (s : Setting σ) (v : Visit) (links : Links) (i : InterfacePair) :
    List Exchange → Bool → Prop
  | passed {c : Connection} (found : links i = some c) (own : v.Owns i c) (up : c.connected = true)
      (managed : c.kind = .management) : Renewal s v links i [] false
  | shaped {c : Connection} (found : links i = some c) (own : v.Owns i c) (up : c.connected = true)
      (kind : c.kind = v.kind) (near : (s.decide v.kind v.distance).connected = true)
      (shaping : Shaping) (result : Except BackendError Unit) :
      Renewal s v links i [.announced (.adjusting (v.site v.kind i.low i.high) c true shaping),
        .performed (.adjust (v.site v.kind i.low i.high) c true shaping) result] (!result.isOk)
  | lowered {c : Connection} (found : links i = some c) (own : v.Owns i c) (up : c.connected = true)
      (kind : c.kind = v.kind) (far : (s.decide v.kind v.distance).connected = false)
      (result : Except BackendError Unit) :
      Renewal s v links i [.performed (.lower (v.site v.kind i.low i.high) c
        (s.decide v.kind v.distance).shaping) result] (!result.isOk)

/-- The link over some interfaces is down, and is brought up. -/
inductive Revival (s : Setting σ) (v : Visit) (links : Links) (i : InterfacePair) :
    List Exchange → Bool → Prop
  | raised {c : Connection} (found : links i = some c) (own : v.Owns i c)
      (down : c.connected = false) (result : Except BackendError Unit) :
      Revival s v links i [.performed (.raise (v.site c.kind i.low i.high) c
        (s.decide v.kind v.distance).shaping) result] (!result.isOk)

/-- What a visit may say, `links` being those of the pair before it: out of range the links that are
up are renewed; in range the candidates come first, and the links that are down last. -/
inductive Dialogue (s : Setting σ) (v : Visit) (links : Links) : List Exchange → Bool → Prop
  | far (far : (s.decide v.kind v.distance).connected = false) {active : List InterfacePair}
      (hactive : links.Lists true active) {l : List Exchange} {b : Bool}
      (renewals : Rounds (s.Renewal v links) active l b) : Dialogue s v links l b
  | opening (near : (s.decide v.kind v.distance).connected = true) {l : List Exchange}
      (opening : s.Opening v links (s.candidates v) l none) : Dialogue s v links l true
  | renewing (near : (s.decide v.kind v.distance).connected = true) {links' : Links}
      {active : List InterfacePair} {l l' : List Exchange}
      (opening : s.Opening v links (s.candidates v) l (some links'))
      (hactive : links'.Lists true active) (renewals : Rounds (s.Renewal v links') active l' true) :
      Dialogue s v links (l ++ l') true
  | reviving (near : (s.decide v.kind v.distance).connected = true) {links' : Links}
      {active inactive : List InterfacePair} {l l' l'' : List Exchange} {b : Bool}
      (opening : s.Opening v links (s.candidates v) l (some links'))
      (hactive : links'.Lists true active) (renewals : Rounds (s.Renewal v links') active l' false)
      (hinactive : links'.Lists false inactive)
      (revivals : Rounds (s.Revival v links') inactive l'' b) :
      Dialogue s v links (l ++ l' ++ l'') b

variable {s : Setting σ} {v : Visit} {links links' : Links} {after : Option Links}
  {ix iy : Interface} {i : InterfacePair} {c : Connection} {l : List Exchange} {b : Bool}
  {P : Exchange → Prop}

/-! ### What holds of all exchanges -/

theorem Turn.forall_mem (attempt : ∀ ix iy l a, s.Attempt v ix iy l a → ∀ x ∈ l, P x)
    (h : s.Turn v links ix iy l after) : ∀ x ∈ l, P x := by
  cases h with
  | known => exact fun _ hx => by cases hx
  | refused _ h | raised _ h | failed _ h => exact attempt _ _ _ _ h

theorem Opening.forall_mem {cs : List (Interface × Interface)}
    (attempt : ∀ ix iy l a, s.Attempt v ix iy l a → ∀ x ∈ l, P x)
    (h : s.Opening v links cs l after) : ∀ x ∈ l, P x := by
  induction h with
  | done => exact fun _ hx => by cases hx
  | stop h => exact h.forall_mem attempt
  | next h _ ih =>
    exact fun x hx => (List.mem_append.mp hx).elim (h.forall_mem attempt x) (ih x)

/-- A property of all exchanges that a visit may come to. -/
theorem Dialogue.forall_mem (attempt : ∀ ix iy l a, s.Attempt v ix iy l a → ∀ x ∈ l, P x)
    (renewal : ∀ links i l b, s.Renewal v links i l b → ∀ x ∈ l, P x)
    (revival : ∀ links i l b, s.Revival v links i l b → ∀ x ∈ l, P x)
    (h : s.Dialogue v links l b) : ∀ x ∈ l, P x := by
  cases h with
  | far _ _ renewals => exact renewals.forall_mem (renewal _)
  | opening _ opening => exact opening.forall_mem attempt
  | renewing _ opening _ renewals =>
    intro x hx
    rcases List.mem_append.mp hx with hx | hx
    · exact opening.forall_mem attempt x hx
    · exact renewals.forall_mem (renewal _) x hx
  | reviving _ opening _ renewals _ revivals =>
    intro x hx
    rw [List.append_assoc] at hx
    rcases List.mem_append.mp hx with hx | hx
    · exact opening.forall_mem attempt x hx
    rcases List.mem_append.mp hx with hx | hx
    · exact renewals.forall_mem (renewal _) x hx
    · exact revivals.forall_mem (revival _) x hx

/-- All exchanges of a visit are of its step. -/
theorem Dialogue.step (h : s.Dialogue v links l b) : ∀ x ∈ l, x.step = v.step := by
  refine h.forall_mem (fun ix iy l a h => ?_) (fun links i l b h => ?_) (fun links i l b h => ?_)
  · cases h <;> simp [Exchange.step, Visit.site]
  · cases h <;> simp [Exchange.step, Visit.site]
  · cases h
    simp [Exchange.step, Visit.site]

/-! ### Where a visit ends -/

/-- An attempt that fails ends with its failed call. -/
theorem Attempt.stops {a : Attempted} (h : s.Attempt v ix iy l a) :
    Stops l (Decidable.decide (a = .failed)) := by
  cases h with
  | startFailed id e => exact .failed (l := []) (fun _ hx => by cases hx) rfl
  | refused id no => exact .fine (by simp [Exchange.failed])
  | createFailed id yes e => exact .failed (l := [_]) (by simp [Exchange.failed]) rfl
  | raiseFailed id yes e => exact .failed (l := [_, _]) (by simp [Exchange.failed]) rfl
  | raised id yes => exact .fine (by simp [Exchange.failed])

theorem Turn.stops (h : s.Turn v links ix iy l after) : Stops l after.isNone := by
  cases h with
  | known => exact .nil
  | refused _ h | raised _ h | failed _ h => exact h.stops

theorem Opening.stops {cs : List (Interface × Interface)} (h : s.Opening v links cs l after) :
    Stops l after.isNone := by
  induction h with
  | done => exact .nil
  | stop h => exact h.stops
  | next h _ ih => exact h.stops.append ih

theorem Renewal.stops (h : s.Renewal v links i l b) : Stops l b := by
  cases h with
  | passed => exact .nil
  | shaped found own up kind near shaping result =>
    cases result with
    | error e => exact .failed (l := [_]) (by simp [Exchange.failed]) rfl
    | ok u => exact .fine (by simp [Exchange.failed])
  | lowered found own up kind far result =>
    cases result with
    | error e => exact .failed (l := []) (by simp) rfl
    | ok u => exact .fine (by simp [Exchange.failed])

theorem Revival.stops (h : s.Revival v links i l b) : Stops l b := by
  obtain ⟨found, own, down, result⟩ := h
  cases result with
  | error e => exact .failed (l := []) (by simp) rfl
  | ok u => exact .fine (by simp [Exchange.failed])

/-- Only the last exchange of a visit may be a failed call. -/
theorem Dialogue.stops (h : s.Dialogue v links l b) : Stops l b := by
  cases h with
  | far _ _ renewals => exact renewals.stops fun _ _ _ => Renewal.stops
  | opening _ opening => exact opening.stops
  | renewing _ opening _ renewals =>
    exact opening.stops.append (renewals.stops fun _ _ _ => Renewal.stops)
  | reviving _ opening _ renewals _ revivals =>
    exact (opening.stops.append (renewals.stops fun _ _ _ => Renewal.stops)).append
      (revivals.stops fun _ _ _ => Revival.stops)

/-! ### Up or down -/

/-- Out of range no link is brought up, and in range none is taken down. -/
theorem Dialogue.lowers_or_raises (h : s.Dialogue v links l b) :
    (∀ x ∈ l, x.raises = false) ∨ ∀ x ∈ l, x.lowers = false := by
  cases hnear : (s.decide v.kind v.distance).connected with
  | false =>
    refine Or.inl ?_
    cases h with
    | far _ _ renewals =>
      refine renewals.forall_mem fun i l b h => ?_
      cases h <;> simp [Exchange.raises]
    | opening near | renewing near | reviving near =>
      rw [hnear] at near
      cases near
  | true =>
    refine Or.inr
      (h.forall_mem (fun ix iy l a h => ?_) (fun links i l b h => ?_) fun links i l b h => ?_)
    · cases h <;> simp [Exchange.lowers]
    · cases h with
      | passed | shaped => simp [Exchange.lowers]
      | lowered _ _ _ _ far =>
        rw [hnear] at far
        cases far
    · cases h
      simp [Exchange.lowers]

/-! ### No link is passed over -/

theorem Turn.keeps (h : s.Turn v links ix iy l (some links')) (hc : links i = some c) :
    links' i = some c := by
  cases h with
  | known | refused => exact hc
  | raised new =>
    have hne : i ≠ ⟨ix, iy⟩ := by
      rintro rfl
      rw [new] at hc
      cases hc
    rw [Function.update_of_ne hne]
    exact hc

/-- The links that were there before stay as they are while candidates have their turn. -/
theorem Opening.keeps {cs : List (Interface × Interface)} (h : s.Opening v links cs l after)
    (hc : links i = some c) : ∀ links' ∈ after, links' i = some c := by
  induction h with
  | done =>
    rintro _ ⟨⟩
    exact hc
  | stop => exact fun _ hmem => by cases hmem
  | next h _ ih => exact ih (h.keeps hc)

theorem Renewal.renewed (h : s.Renewal v links i l b) (hc : links i = some c)
    (plain : c.kind ≠ .management) : c.Renewed l := by
  cases h with
  | passed found _ _ managed =>
    obtain rfl := Option.some.inj (hc.symm.trans found)
    exact absurd managed plain
  | shaped found =>
    obtain rfl := Option.some.inj (hc.symm.trans found)
    exact .shaped _ _ _
  | lowered found =>
    obtain rfl := Option.some.inj (hc.symm.trans found)
    exact .lowered _ _ _

/-- A visit on which no call fails shapes each link that was up before it, or takes it down, unless it
is one to the management node. -/
theorem Dialogue.renewed (h : s.Dialogue v links l false) (hc : links i = some c)
    (hup : c.connected = true) (plain : c.kind ≠ .management) : ∃ l', c.Renewed l' ∧ l' <:+: l := by
  cases h with
  | far _ hactive renewals =>
    obtain ⟨l', hl', hsub⟩ := renewals.exists_of_mem ((hactive.mem i).mpr ⟨c, hc, hup⟩)
    exact ⟨l', hl'.renewed hc plain, hsub⟩
  | @reviving _ links' _ _ before _ _ _ opening hactive renewals =>
    have hc' : links' i = some c := opening.keeps hc links' rfl
    obtain ⟨l', hl', hsub⟩ := renewals.exists_of_mem ((hactive.mem i).mpr ⟨c, hc', hup⟩)
    refine ⟨l', hl'.renewed hc' plain, hsub.trans ?_⟩
    exact List.infix_append before _ _

end Setting

end ProximityNet

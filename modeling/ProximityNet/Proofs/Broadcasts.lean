import ProximityNet.Proofs.Overheard

/-!
# Broadcasts inside broadcasts

A broadcast is a backend, so it can be one of the backends of another broadcast, to any depth.  One
backend after another is again a backend (`Backend.andThen`), this is associative, and a broadcast
is what it makes of a list; so only the order of the leaves matters, not how they are grouped.

* `broadcast_cons`, `andThen_assoc`, `broadcast_append` — broadcasts as one backend after another;
* `BackendTree`, `backend_eq_broadcast` — nested broadcasts, and the flat one over their leaves;
* `Backend.respond`, `Backend.respondAll` — what comes of a call, and of a sequence of calls;
* `Backend.watched`, `BackendTree.watched` — leaves that write down what they are told, with their
  place among the leaves;
* `Round` — what a broadcast makes of the responses of its leaves;
* `watchAll_round`, `Round.confirmed_iff` — every call is a round, and when one confirms a start;
* `broadcast_composes` — nesting makes no difference to the responses nor to any leaf.
-/

namespace ProximityNet

variable {σ : Type}

/-! ### One backend after another -/

/-- Both have to accept, and the first switch that is named is taken. -/
def StartAnswer.and (a b : StartAnswer) : StartAnswer :=
  ⟨a.accepted && b.accepted, a.switch.or b.switch⟩

namespace StartAnswer

@[simp] theorem and_yes (a : StartAnswer) : a.and yes = a := by
  simp [StartAnswer.and, yes]

theorem and_assoc (a b c : StartAnswer) : (a.and b).and c = a.and (b.and c) := by
  simp [StartAnswer.and, Bool.and_assoc, Option.or_assoc]

end StartAnswer

namespace Backend

/-- Pass everything on to `b` and then, unless `b` fails, to `c`. -/
def andThen (b c : Backend σ) : Backend σ where
  announce a s := c.announce a (b.announce a s)
  start site conn s :=
    match b.start site conn s with
    | (.ok answer, s') =>
      let (r, s'') := c.start site conn s'
      (r.map answer.and, s'')
    | (.error e, s') => (.error e, s')
  perform q s :=
    match b.perform q s with
    | (.ok (), s') => c.perform q s'
    | (.error e, s') => (.error e, s')

theorem ext_calls {b c : Backend σ} (announce : ∀ a s, b.announce a s = c.announce a s)
    (start : ∀ site conn s, b.start site conn s = c.start site conn s)
    (perform : ∀ q s, b.perform q s = c.perform q s) : b = c := by
  obtain ⟨f, g, h⟩ := b
  obtain ⟨f', g', h'⟩ := c
  obtain rfl : f = f' := funext fun a => funext fun s => announce a s
  obtain rfl : g = g' := funext fun site => funext fun conn => funext fun s => start site conn s
  obtain rfl : h = h' := funext fun q => funext fun s => perform q s
  rfl

section AndThen

variable {b c : Backend σ} {site : LinkSite} {conn : Connection} {q : Request} {s s' : σ}

theorem andThen_start_of_ok {answer : StartAnswer} (h : b.start site conn s = (.ok answer, s')) :
    (b.andThen c).start site conn s =
      ((c.start site conn s').1.map answer.and, (c.start site conn s').2) := by
  simp only [andThen, h]

theorem andThen_start_of_error {e : BackendError} (h : b.start site conn s = (.error e, s')) :
    (b.andThen c).start site conn s = (.error e, s') := by
  simp only [andThen, h]

theorem andThen_perform_of_ok (h : b.perform q s = (.ok (), s')) :
    (b.andThen c).perform q s = c.perform q s' := by
  simp only [andThen, h]

theorem andThen_perform_of_error {e : BackendError} (h : b.perform q s = (.error e, s')) :
    (b.andThen c).perform q s = (.error e, s') := by
  simp only [andThen, h]

end AndThen

theorem map_and_assoc (a b : StartAnswer) (r : Except BackendError StartAnswer) :
    (r.map b.and).map a.and = r.map (a.and b).and := by
  cases r with
  | error e => rfl
  | ok answer => exact congrArg Except.ok (StartAnswer.and_assoc a b answer).symm

theorem andThen_assoc (b c d : Backend σ) : (b.andThen c).andThen d = b.andThen (c.andThen d) := by
  refine ext_calls (fun a s => rfl) (fun site conn s => ?_) (fun q s => ?_)
  · rcases hb : b.start site conn s with ⟨_ | answer, s₁⟩
    · rw [andThen_start_of_error hb, andThen_start_of_error (andThen_start_of_error hb)]
    · have hbc := andThen_start_of_ok (c := c) hb
      rw [andThen_start_of_ok hb]
      rcases hc : c.start site conn s₁ with ⟨_ | answer', s₂⟩ <;> rw [hc] at hbc
      · rw [andThen_start_of_error hbc, andThen_start_of_error hc]
        rfl
      · rw [andThen_start_of_ok hbc, andThen_start_of_ok hc, map_and_assoc]
  · rcases hb : b.perform q s with ⟨_ | _, s₁⟩
    · rw [andThen_perform_of_error hb, andThen_perform_of_error (andThen_perform_of_error hb)]
    · have hbc := andThen_perform_of_ok (c := c) hb
      rw [andThen_perform_of_ok hb]
      rcases hc : c.perform q s₁ with ⟨_ | _, s₂⟩ <;> rw [hc] at hbc
      · rw [andThen_perform_of_error hbc, andThen_perform_of_error hc]
      · rw [andThen_perform_of_ok hbc, andThen_perform_of_ok hc]

theorem silent_andThen (b : Backend σ) : silent.andThen b = b := by
  refine ext_calls (fun a s => rfl) (fun site conn s => ?_) (fun q s => rfl)
  have hsilent : (silent : Backend σ).start site conn s = (.ok .yes, s) := rfl
  rw [andThen_start_of_ok hsilent]
  rcases b.start site conn s with ⟨_ | answer, s₁⟩ <;> rfl

theorem andThen_silent (b : Backend σ) : b.andThen silent = b := by
  refine ext_calls (fun a s => rfl) (fun site conn s => ?_) (fun q s => ?_)
  · rcases h : b.start site conn s with ⟨_ | answer, s₁⟩
    · exact andThen_start_of_error h
    · rw [andThen_start_of_ok h]
      exact congrArg (fun a => (Except.ok a, s₁)) answer.and_yes
  · rcases h : b.perform q s with ⟨_ | _, s₁⟩
    · exact andThen_perform_of_error h
    · exact andThen_perform_of_ok h

/-! ### Broadcasts -/

/-- What was answered before is joined with what the others answer. -/
theorem startAll_eq (site : LinkSite) (conn : Connection) (bs : List (Backend σ))
    (sum : StartAnswer) (s : σ) :
    startAll site conn bs sum s =
      ((startAll site conn bs .yes s).1.map sum.and, (startAll site conn bs .yes s).2) := by
  induction bs generalizing sum s with
  | nil =>
    show (Except.ok sum, s) = (Except.ok (sum.and .yes), s)
    rw [StartAnswer.and_yes]
  | cons b rest ih =>
    rw [startAll, startAll]
    rcases b.start site conn s with ⟨_ | answer, s₁⟩
    · rfl
    · show startAll site conn rest (sum.and answer) s₁ =
        ((startAll site conn rest answer s₁).1.map sum.and, (startAll site conn rest answer s₁).2)
      rw [ih (sum.and answer), ih answer, map_and_assoc]

theorem broadcast_nil : broadcast ([] : List (Backend σ)) = silent := rfl

theorem broadcast_cons (b : Backend σ) (bs : List (Backend σ)) :
    broadcast (b :: bs) = b.andThen (broadcast bs) := by
  refine ext_calls (fun a s => rfl) (fun site conn s => ?_) (fun q s => ?_)
  · show startAll site conn (b :: bs) .yes s = _
    rw [startAll]
    rcases h : b.start site conn s with ⟨_ | answer, s₁⟩
    · exact (andThen_start_of_error h).symm
    · rw [andThen_start_of_ok h]
      exact startAll_eq site conn bs answer s₁
  · show performAll q (b :: bs) s = _
    rw [performAll]
    rcases h : b.perform q s with ⟨_ | _, s₁⟩
    · exact (andThen_perform_of_error h).symm
    · rw [andThen_perform_of_ok h]
      rfl

theorem broadcast_singleton (b : Backend σ) : broadcast [b] = b := by
  rw [broadcast_cons, broadcast_nil, andThen_silent]

theorem broadcast_append (bs bs' : List (Backend σ)) :
    broadcast (bs ++ bs') = (broadcast bs).andThen (broadcast bs') := by
  induction bs with
  | nil => rw [List.nil_append, broadcast_nil, silent_andThen]
  | cons b rest ih =>
    rw [List.cons_append, broadcast_cons, broadcast_cons, ih, andThen_assoc]

end Backend

/-! ### Trees of broadcasts -/

/-- Backends in groups that everything is passed on to, nested to any depth. -/
inductive BackendTree (σ : Type) where
  | leaf (b : Backend σ)
  | group (members : List (BackendTree σ))

namespace BackendTree

mutual

/-- The backend that a tree is: a broadcast for every group. -/
def backend : BackendTree σ → Backend σ
  | leaf b => b
  | group members => .broadcast (backends members)

def backends : List (BackendTree σ) → List (Backend σ)
  | [] => []
  | t :: rest => t.backend :: backends rest

end

mutual

/-- The leaves of a tree from left to right. -/
def leaves : BackendTree σ → List (Backend σ)
  | leaf b => [b]
  | group members => leavesOf members

def leavesOf : List (BackendTree σ) → List (Backend σ)
  | [] => []
  | t :: rest => t.leaves ++ leavesOf rest

end

mutual

/-- A tree of broadcasts is the flat broadcast over its leaves. -/
theorem backend_eq_broadcast : ∀ t : BackendTree σ, t.backend = .broadcast t.leaves
  | leaf b => (Backend.broadcast_singleton b).symm
  | group members => by
    rw [backend, leaves]
    exact broadcast_backends members

theorem broadcast_backends : ∀ ts : List (BackendTree σ),
    Backend.broadcast (backends ts) = .broadcast (leavesOf ts)
  | [] => rfl
  | t :: rest => by
    rw [backends, leavesOf, Backend.broadcast_cons, Backend.broadcast_append,
      backend_eq_broadcast t, broadcast_backends rest]

end

end BackendTree

/-! ### Responses -/

namespace Backend

/-- What comes of a call. -/
def respond (b : Backend σ) : Call → σ → Exchange × σ
  | .announce a, s => (.announced a, b.announce a s)
  | .start site conn, s => (.asked site conn (b.start site conn s).1, (b.start site conn s).2)
  | .perform q, s => (.performed q (b.perform q s).1, (b.perform q s).2)

/-- What comes of a sequence of calls. -/
def respondAll (b : Backend σ) : List Call → σ → List Exchange × σ
  | [], s => ([], s)
  | call :: rest, s =>
    ((b.respond call s).1 :: (b.respondAll rest (b.respond call s).2).1,
      (b.respondAll rest (b.respond call s).2).2)

/-- The same backend, which writes down behind its state what it is told and responds, with its
place among all leaves. -/
def watched (b : Backend σ) (place : Nat) : Backend (σ × List (Nat × Exchange)) where
  announce a w := (b.announce a w.1, w.2 ++ [(place, .announced a)])
  start site conn w :=
    let (answer, s) := b.start site conn w.1
    (answer, (s, w.2 ++ [(place, .asked site conn answer)]))
  perform q w :=
    let (result, s) := b.perform q w.1
    (result, (s, w.2 ++ [(place, .performed q result)]))

/-- Leaves that write down what they are told, numbered from `place` on. -/
def watchAll : List (Backend σ) → Nat → List (Backend (σ × List (Nat × Exchange)))
  | [], _ => []
  | b :: rest, place => b.watched place :: watchAll rest (place + 1)

theorem watchAll_append (bs bs' : List (Backend σ)) (place : Nat) :
    watchAll (bs ++ bs') place = watchAll bs place ++ watchAll bs' (place + bs.length) := by
  induction bs generalizing place with
  | nil => rfl
  | cons b rest ih =>
    rw [List.cons_append, watchAll, watchAll, ih, List.length_cons, List.cons_append,
      Nat.add_right_comm, Nat.add_assoc place]

end Backend

namespace BackendTree

mutual

/-- The same tree, whose leaves write down what they are told, numbered from `place` on. -/
def watchedFrom : BackendTree σ → Nat → BackendTree (σ × List (Nat × Exchange))
  | leaf b, place => leaf (b.watched place)
  | group members, place => group (watchedAll members place)

def watchedAll : List (BackendTree σ) → Nat → List (BackendTree (σ × List (Nat × Exchange)))
  | [], _ => []
  | t :: rest, place => t.watchedFrom place :: watchedAll rest (place + t.leaves.length)

end

/-- The same tree, whose leaves write down what they are told, numbered from left to right. -/
def watched (t : BackendTree σ) : BackendTree (σ × List (Nat × Exchange)) := t.watchedFrom 0

mutual

theorem leaves_watchedFrom : ∀ (t : BackendTree σ) (place : Nat),
    (t.watchedFrom place).leaves = Backend.watchAll t.leaves place
  | leaf b, place => by
    rw [watchedFrom, leaves, leaves]
    rfl
  | group members, place => by
    rw [watchedFrom, leaves, leaves]
    exact leavesOf_watchedAll members place

theorem leavesOf_watchedAll : ∀ (ts : List (BackendTree σ)) (place : Nat),
    leavesOf (watchedAll ts place) = Backend.watchAll (leavesOf ts) place
  | [], _ => by
    rw [watchedAll, leavesOf, leavesOf]
    rfl
  | t :: rest, place => by
    rw [watchedAll, leavesOf, leavesOf, Backend.watchAll_append, leaves_watchedFrom t place,
      leavesOf_watchedAll rest]

end

theorem backend_watched (t : BackendTree σ) :
    t.watched.backend = .broadcast (Backend.watchAll t.leaves 0) := by
  rw [backend_eq_broadcast, watched, leaves_watchedFrom]

end BackendTree

/-! ### Watching changes nothing else -/

namespace Backend

/-- Responses are the same in a larger world that only holds more. -/
theorem Shows.respondAll {τ : Type} {look : τ → σ} {b' : Backend τ} {b : Backend σ}
    (h : b'.Shows look b) (calls : List Call) (w : τ) :
    (b'.respondAll calls w).1 = (b.respondAll calls (look w)).1 ∧
      look (b'.respondAll calls w).2 = (b.respondAll calls (look w)).2 := by
  have one : ∀ call w, (b'.respond call w).1 = (b.respond call (look w)).1 ∧
      look (b'.respond call w).2 = (b.respond call (look w)).2 := by
    intro call w
    cases call with
    | announce a => exact ⟨rfl, h.announce a w⟩
    | start site conn =>
      have hstart := h.start site conn w
      exact ⟨congrArg (Exchange.asked site conn) (congrArg Prod.fst hstart),
        congrArg Prod.snd hstart⟩
    | perform q =>
      have hperform := h.perform q w
      exact ⟨congrArg (Exchange.performed q) (congrArg Prod.fst hperform),
        congrArg Prod.snd hperform⟩
  induction calls generalizing w with
  | nil => exact ⟨rfl, rfl⟩
  | cons call rest ih =>
    obtain ⟨hresponse, hworld⟩ := one call w
    obtain ⟨hrest, hend⟩ := ih (b'.respond call w).2
    rw [hworld] at hrest hend
    refine ⟨?_, hend⟩
    show _ :: _ = _ :: _
    rw [hresponse, hrest]

theorem Shows.andThen {τ : Type} {look : τ → σ} {b' c' : Backend τ} {b c : Backend σ}
    (hb : b'.Shows look b) (hc : c'.Shows look c) :
    (b'.andThen c').Shows look (b.andThen c) where
  announce a w := by
    show look (c'.announce a (b'.announce a w)) = _
    rw [hc.announce, hb.announce]
    rfl
  start site conn w := by
    have hstart := hb.start site conn w
    rcases h : b'.start site conn w with ⟨_ | answer, w₁⟩ <;> rw [h] at hstart
    · rw [andThen_start_of_error h, andThen_start_of_error hstart.symm]
    · rw [andThen_start_of_ok h, andThen_start_of_ok hstart.symm, ← hc.start site conn w₁]
  perform q w := by
    have hperform := hb.perform q w
    rcases h : b'.perform q w with ⟨_ | _, w₁⟩ <;> rw [h] at hperform
    · rw [andThen_perform_of_error h, andThen_perform_of_error hperform.symm]
    · rw [andThen_perform_of_ok h, andThen_perform_of_ok hperform.symm, ← hc.perform q w₁]

theorem watchAll_shows (bs : List (Backend σ)) (place : Nat) :
    (broadcast (watchAll bs place)).Shows Prod.fst (broadcast bs) := by
  induction bs generalizing place with
  | nil => exact ⟨fun _ _ => rfl, fun _ _ _ => rfl, fun _ _ => rfl⟩
  | cons b rest ih =>
    rw [watchAll, broadcast_cons, broadcast_cons]
    have hb : (b.watched place).Shows Prod.fst b :=
      ⟨fun _ _ => rfl, fun _ _ _ => rfl, fun _ _ => rfl⟩
    exact hb.andThen (ih (place + 1))

end Backend

/-! ### Rounds -/

/-- What `n` backends that are told something in turn make of it, as one response: all respond, and
their answers are put together, or one fails, which ends the round. -/
inductive Round (n : Nat) : List Exchange → Exchange → Prop
  | announced (a : Announcement) : Round n (List.replicate n (.announced a)) (.announced a)
  | answered (site : LinkSite) (conn : Connection) (answers : List StartAnswer)
      (all : answers.length = n) :
      Round n (answers.map fun answer => .asked site conn (.ok answer))
        (.asked site conn (.ok ⟨answers.all (·.accepted), answers.findSome? (·.switch)⟩))
  | startFailed (site : LinkSite) (conn : Connection) (answers : List StartAnswer)
      (fewer : answers.length < n) (e : BackendError) :
      Round n ((answers.map fun answer => .asked site conn (.ok answer)) ++
        [.asked site conn (.error e)]) (.asked site conn (.error e))
  | performed (q : Request) :
      Round n (List.replicate n (.performed q (.ok ()))) (.performed q (.ok ()))
  | performFailed (q : Request) (done : Nat) (fewer : done < n) (e : BackendError) :
      Round n (List.replicate done (.performed q (.ok ())) ++ [.performed q (.error e)])
        (.performed q (.error e))

namespace Round

variable {n : Nat} {heard : List Exchange}

theorem announced_cons {a : Announcement} (h : Round n heard (.announced a)) :
    Round (n + 1) (.announced a :: heard) (.announced a) := by
  cases h
  exact .announced a

theorem asked_cons {site : LinkSite} {conn : Connection} {r : Except BackendError StartAnswer}
    (answer : StartAnswer) (h : Round n heard (.asked site conn r)) :
    Round (n + 1) (.asked site conn (.ok answer) :: heard)
      (.asked site conn (r.map answer.and)) := by
  cases h with
  | answered _ _ answers all =>
    have hsum : answer.and ⟨answers.all (·.accepted), answers.findSome? (·.switch)⟩ =
        ⟨(answer :: answers).all (·.accepted), (answer :: answers).findSome? (·.switch)⟩ := by
      rw [List.all_cons, List.findSome?_cons]
      cases h : answer.switch <;> simp [StartAnswer.and, h]
    show Round (n + 1) _ (.asked site conn (.ok (answer.and _)))
    rw [hsum]
    exact .answered site conn (answer :: answers) (congrArg Nat.succ all)
  | startFailed _ _ answers fewer e =>
    exact .startFailed site conn (answer :: answers) (Nat.succ_lt_succ fewer) e

theorem performed_cons {q : Request} {r : Except BackendError Unit}
    (h : Round n heard (.performed q r)) :
    Round (n + 1) (.performed q (.ok ()) :: heard) (.performed q r) := by
  cases h with
  | performed => exact .performed q
  | performFailed _ done fewer e => exact .performFailed q (done + 1) (Nat.succ_lt_succ fewer) e

/-- A start is confirmed exactly when all are asked and each of them confirms it. -/
theorem confirmed_iff {site : LinkSite} {conn : Connection} {r : Except BackendError StartAnswer}
    (h : Round n heard (.asked site conn r)) :
    (∃ answer, r = .ok answer ∧ answer.accepted = true) ↔
      heard.length = n ∧
        ∀ x ∈ heard, ∃ answer, x = .asked site conn (.ok answer) ∧ answer.accepted = true := by
  cases h with
  | answered _ _ answers all =>
    constructor
    · rintro ⟨answer, hanswer, haccepted⟩
      obtain rfl := Except.ok.inj hanswer
      refine ⟨(List.length_map _).trans all, fun x hx => ?_⟩
      obtain ⟨a, ha, rfl⟩ := List.mem_map.mp hx
      exact ⟨a, rfl, List.all_eq_true.mp haccepted a ha⟩
    · rintro ⟨-, heach⟩
      refine ⟨_, rfl, List.all_eq_true.mpr fun a ha => ?_⟩
      obtain ⟨a', ha', haccepted⟩ := heach _ (List.mem_map.mpr ⟨a, ha, rfl⟩)
      obtain rfl : a = a' := by simpa using ha'
      exact haccepted
  | startFailed _ _ answers fewer e =>
    constructor
    · rintro ⟨answer, hanswer, -⟩
      cases hanswer
    · rintro ⟨-, heach⟩
      obtain ⟨answer, hanswer, -⟩ := heach _ (List.mem_append_right _ List.mem_cons_self)
      simp at hanswer

end Round

/-- Responses with the places of those who gave them, from `place` on. -/
def numberedFrom (place : Nat) : List Exchange → List (Nat × Exchange)
  | [] => []
  | x :: rest => (place, x) :: numberedFrom (place + 1) rest

namespace Backend

/-- Every call to a broadcast is a round of its leaves, from left to right. -/
theorem watchAll_round (bs : List (Backend σ)) (place : Nat) (call : Call)
    (w : σ × List (Nat × Exchange)) :
    ∃ heard, ((broadcast (watchAll bs place)).respond call w).2.2 =
        w.2 ++ numberedFrom place heard ∧
      Round bs.length heard ((broadcast (watchAll bs place)).respond call w).1 := by
  induction bs generalizing place w with
  | nil =>
    refine ⟨[], ?_, ?_⟩
    · cases call <;> exact (List.append_nil _).symm
    · cases call with
      | announce a => exact .announced a
      | start site conn => exact .answered site conn [] rfl
      | perform q => exact .performed q
  | cons b rest ih =>
    have longer : ∀ (x : Exchange) (heard : List Exchange),
        (w.2 ++ [(place, x)]) ++ numberedFrom (place + 1) heard =
          w.2 ++ numberedFrom place (x :: heard) := fun x heard => List.append_assoc ..
    rw [watchAll, broadcast_cons]
    cases call with
    | announce a =>
      obtain ⟨heard, hlog, hround⟩ := ih (place + 1) ((b.watched place).announce a w)
      exact ⟨.announced a :: heard, hlog.trans (longer _ heard), hround.announced_cons⟩
    | start site conn =>
      rcases h : b.start site conn w.1 with ⟨e | answer, s⟩
      · have hb : (b.watched place).start site conn w =
            (.error e, (s, w.2 ++ [(place, .asked site conn (.error e))])) := by
          simp only [watched, h]
        rw [respond, andThen_start_of_error hb]
        exact ⟨[.asked site conn (.error e)], rfl,
          .startFailed site conn [] (Nat.succ_pos _) e⟩
      · have hb : (b.watched place).start site conn w =
            (.ok answer, (s, w.2 ++ [(place, .asked site conn (.ok answer))])) := by
          simp only [watched, h]
        obtain ⟨heard, hlog, hround⟩ :=
          ih (place + 1) (s, w.2 ++ [(place, .asked site conn (.ok answer))])
        rw [respond, andThen_start_of_ok hb]
        exact ⟨.asked site conn (.ok answer) :: heard, hlog.trans (longer _ heard),
          hround.asked_cons answer⟩
    | perform q =>
      rcases h : b.perform q w.1 with ⟨e | _, s⟩
      · have hb : (b.watched place).perform q w =
            (.error e, (s, w.2 ++ [(place, .performed q (.error e))])) := by
          simp only [watched, h]
        rw [respond, andThen_perform_of_error hb]
        exact ⟨[.performed q (.error e)], rfl, .performFailed q 0 (Nat.succ_pos _) e⟩
      · have hb : (b.watched place).perform q w =
            (.ok (), (s, w.2 ++ [(place, .performed q (.ok ()))])) := by
          simp only [watched, h]
        obtain ⟨heard, hlog, hround⟩ :=
          ih (place + 1) (s, w.2 ++ [(place, .performed q (.ok ()))])
        rw [respond, andThen_perform_of_ok hb]
        exact ⟨.performed q (.ok ()) :: heard, hlog.trans (longer _ heard),
          hround.performed_cons⟩

end Backend

/-- Nesting makes no difference.  A tree of broadcasts responds to every sequence of calls as the
flat broadcast over its leaves from left to right, and leaves the same world behind; when the leaves
write down what they are told, which changes nothing else, the two logs are the same, so every leaf
is told the same in the same order.  Each call is a round of the leaves from left to right: a start
is confirmed exactly when all are asked and confirm it, with the first switch that a leaf names, and
the error of a leaf is returned and is the last that is heard in the round. -/
theorem broadcast_composes (t : BackendTree σ) :
    (∀ calls s, t.backend.respondAll calls s = (Backend.broadcast t.leaves).respondAll calls s) ∧
      (∀ calls w, t.watched.backend.respondAll calls w =
        (Backend.broadcast (Backend.watchAll t.leaves 0)).respondAll calls w) ∧
      (∀ calls w, (t.watched.backend.respondAll calls w).1 = (t.backend.respondAll calls w.1).1 ∧
        (t.watched.backend.respondAll calls w).2.1 = (t.backend.respondAll calls w.1).2) ∧
      (∀ call w, ∃ heard,
        (t.watched.backend.respond call w).2.2 = w.2 ++ numberedFrom 0 heard ∧
          Round t.leaves.length heard (t.watched.backend.respond call w).1) ∧
      ∀ site conn w, ∃ heard,
        (t.watched.backend.start site conn w).2.2 = w.2 ++ numberedFrom 0 heard ∧
          ((∃ answer, (t.watched.backend.start site conn w).1 = .ok answer ∧
              answer.accepted = true) ↔
            heard.length = t.leaves.length ∧
              ∀ x ∈ heard, ∃ answer, x = .asked site conn (.ok answer) ∧
                answer.accepted = true) := by
  have hrounds : ∀ call w, ∃ heard,
      (t.watched.backend.respond call w).2.2 = w.2 ++ numberedFrom 0 heard ∧
        Round t.leaves.length heard (t.watched.backend.respond call w).1 := by
    intro call w
    rw [t.backend_watched]
    exact Backend.watchAll_round t.leaves 0 call w
  refine ⟨fun calls s => ?_, fun calls w => ?_, fun calls w => ?_, hrounds, fun site conn w => ?_⟩
  · rw [← t.backend_eq_broadcast]
  · rw [← t.backend_watched]
  · rw [t.backend_watched, t.backend_eq_broadcast]
    exact (Backend.watchAll_shows t.leaves 0).respondAll calls w
  · obtain ⟨heard, hlog, hround⟩ := hrounds (.start site conn) w
    exact ⟨heard, hlog, hround.confirmed_iff⟩

end ProximityNet

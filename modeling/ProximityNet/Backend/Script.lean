import ProximityNet.Backend.Basic

/-!
# Scripted backends

A scripted backend answers by rules, to rehearse what a network does when links are refused or fail.
Rules are asked in order, and the first one that applies to a call answers it.  A rule may let some
calls pass before it applies, and may be used up.

`Backend.noted` writes down every call before it is passed on, whatever the backend.
-/

namespace ProximityNet

/-- The calls that a rule can be about. -/
inductive CallKind where
  | finishStep
  | start
  | create
  | raise
  | lower
  | adjusting
  | adjust
deriving DecidableEq

namespace Call

/-- What a rule has to be about to apply to this call; there is none for the announcements of a
step. -/
def kind? : Call → Option CallKind
  | announce (.adjusting ..) => some .adjusting
  | announce _ => none
  | start .. => some .start
  | perform (.finishStep ..) => some .finishStep
  | perform (.create ..) => some .create
  | perform (.raise ..) => some .raise
  | perform (.lower ..) => some .lower
  | perform (.adjust ..) => some .adjust

/-- The link that a call is about. -/
def site? : Call → Option LinkSite
  | announce (.adjusting site ..) => some site
  | announce _ => none
  | start site _ => some site
  | perform (.finishStep ..) => none
  | perform (.create site _) => some site
  | perform (.raise site ..) => some site
  | perform (.lower site ..) => some site
  | perform (.adjust site ..) => some site

/-- The step that a call belongs to. -/
def step : Call → Nat
  | announce (.stepStarting step _) => step
  | announce (.changesPending step ..) => step
  | announce (.changesApplied step ..) => step
  | announce (.adjusting site ..) => site.step
  | start site _ => site.step
  | perform (.finishStep step _) => step
  | perform (.create site _) => site.step
  | perform (.raise site ..) => site.step
  | perform (.lower site ..) => site.step
  | perform (.adjust site ..) => site.step

end Call

/-- A rule of a script: which calls it is about, and what it answers. -/
structure ScriptRule where
  kind : CallKind
  /-- Only in this step. -/
  step : Option Nat
  /-- Only for links of this node. -/
  node : Option NodeId
  /-- How many more calls pass before it applies. -/
  skip : Nat
  /-- How many more calls it answers, if it can be used up. -/
  times : Option Nat
  error : Option BackendError
  answer : StartAnswer
deriving DecidableEq

namespace ScriptRule

/-- Whether a rule is about a call. -/
def concerns (r : ScriptRule) (c : Call) : Bool :=
  c.kind? = some r.kind && r.step.all (c.step = ·)
    && r.node.all fun n => c.site?.any fun site => site.x.id = n || site.y.id = n

/-- Ask a rule that is about a call whether it applies, and what is left of it then. -/
def apply (r : ScriptRule) : Bool × ScriptRule :=
  if 0 < r.skip then (false, { r with skip := r.skip - 1 })
  else
    match r.times with
    | none => (true, r)
    | some 0 => (false, r)
    | some (n + 1) => (true, { r with times := some n })

end ScriptRule

/-- The rules of a scripted backend. -/
abbrev Script := List ScriptRule

namespace Script

/-- The rule that answers a call, and what is left of the script then. -/
def consult (c : Call) : Script → Option ScriptRule × Script
  | [] => (none, [])
  | r :: rest =>
    if r.concerns c then
      let (applies, r') := r.apply
      if applies then (some r, r' :: rest)
      else
        let (found, rest') := consult c rest
        (found, r' :: rest')
    else
      let (found, rest') := consult c rest
      (found, r :: rest')

/-- Answers by the rules; what no rule applies to is accepted. -/
def backend : Backend Script where
  announce a s := (consult (.announce a) s).2
  start site c s :=
    match consult (.start site c) s with
    | (none, s') => (.ok .yes, s')
    | (some r, s') =>
      match r.error with
      | some e => (.error e, s')
      | none => (.ok r.answer, s')
  perform q s :=
    match consult (.perform q) s with
    | (none, s') => (.ok (), s')
    | (some r, s') =>
      match r.error with
      | some e => (.error e, s')
      | none => (.ok (), s')

end Script

/-- Write down every call, and pass it on. -/
def Backend.noted {σ : Type} (note : Call → σ → σ) (b : Backend σ) : Backend σ where
  announce a s := b.announce a (note (.announce a) s)
  start site c s := b.start site c (note (.start site c) s)
  perform q s := b.perform q (note (.perform q) s)

end ProximityNet

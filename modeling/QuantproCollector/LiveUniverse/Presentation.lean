import QuantproCollector.LiveUniverse.Positions

/-!
# The presentation of the portfolio

The status document, the state derived from it at an instant, and what the caller is shown: the most
conservative of the declared and the derived state. Instants are milliseconds. The age rule of the
universe is written apart from the derivation; `presentation_conservative` says that the two agree.
-/

namespace QuantproCollector.LiveUniverse

open Portfolio (Runtime isRecord isHash assertHash)

def PORTFOLIO_STATUS_SCHEMA : String := "portfolio-status/1"

def LIVE_COMPLETE_MAX_AGE_SECONDS : ℤ := 24 * 60 * 60

def LKG_VALID_MAX_AGE_SECONDS : ℤ := 10 * 24 * 60 * 60

def FUTURE_TOLERANCE_SECONDS : ℤ := 300

def DEFAULT_LIVE_UNIVERSE_MAX_AGE_SECONDS : ℤ := 10 * 24 * 60 * 60

def LIVE_UNIVERSE_FUTURE_TOLERANCE_SECONDS : ℤ := 300

inductive PortfolioState where
  | LIVE_COMPLETE
  | LKG_VALID
  | PORTFOLIO_UNKNOWN
deriving DecidableEq

namespace PortfolioState

def text : PortfolioState → String
  | LIVE_COMPLETE => "LIVE_COMPLETE"
  | LKG_VALID => "LKG_VALID"
  | PORTFOLIO_UNKNOWN => "PORTFOLIO_UNKNOWN"

/-- `CONSERVATISM[state]`. -/
def conservatism : PortfolioState → ℕ
  | LIVE_COMPLETE => 0
  | LKG_VALID => 1
  | PORTFOLIO_UNKNOWN => 2

theorem conservatism_injective : Function.Injective conservatism := by
  intro a b h
  cases a <;> cases b <;> first | rfl | cases h

/-- The order of conservatism: the greater state is the more conservative one. -/
instance : LinearOrder PortfolioState := LinearOrder.lift' conservatism conservatism_injective

theorem le_iff (a b : PortfolioState) : a ≤ b ↔ a.conservatism ≤ b.conservatism := Iff.rfl

theorem le_unknown (a : PortfolioState) : a ≤ PORTFOLIO_UNKNOWN := by
  cases a <;> decide

end PortfolioState

open PortfolioState

def PORTFOLIO_STATES : List PortfolioState := [LIVE_COMPLETE, LKG_VALID, PORTFOLIO_UNKNOWN]

structure PortfolioStatusPayload where
  generated_at : String
  state : PortfolioState
  last_real_complete_confirmed_at : Option String
  universe_content_hash : String
  source_manifest_hash : String
deriving DecidableEq

structure StoredPortfolioStatus extends PortfolioStatusPayload where
  received_at : String
deriving DecidableEq

def STATUS_TOP_LEVEL_KEYS : List String :=
  ["schema_version", "generated_at", "state", "last_real_complete_confirmed_at",
    "universe_content_hash", "source_manifest_hash"]

/-! ## The status document -/

def assertStatusTimestamp (R : Runtime) (value : Option Json) (context : String) :
    Except String String :=
  match value with
  | some (.str s) =>
    if s.toList.all isSpace then .error s!"{context} must be a non-empty string"
    else if (R.dateParse s).isNone then .error s!"{context} must be a parseable timestamp"
    else .ok s
  | _ => .error s!"{context} must be a non-empty string"

def assertDeclared (value : Option Json) : Except String PortfolioState :=
  match PORTFOLIO_STATES.find? fun state => value = some (.str state.text) with
  | some state => .ok state
  | none => .error ("state must be one of " ++ ", ".intercalate (PORTFOLIO_STATES.map (·.text)))

/-- The confirmation's text; `null` where there was none. -/
def assertConfirmedAt (R : Runtime) (value : Option Json) : Except String (Option String) :=
  match value with
  | some .null => .ok none
  | _ => some <$> assertStatusTimestamp R value "last_real_complete_confirmed_at"

def validatePortfolioStatus (R : Runtime) (value : Json) :
    Except String PortfolioStatusPayload := do
  require (isRecord value) "portfolio status must be an object"
  Portfolio.assertExactKeys value STATUS_TOP_LEVEL_KEYS "portfolio_status"
  require (decide (value.get? "schema_version" = some (.str PORTFOLIO_STATUS_SCHEMA)))
    ("schema_version must be " ++ PORTFOLIO_STATUS_SCHEMA)
  let generatedAt ← assertStatusTimestamp R (value.get? "generated_at") "generated_at"
  let declared ← assertDeclared (value.get? "state")
  let confirmedAt ← assertConfirmedAt R (value.get? "last_real_complete_confirmed_at")
  let contentHash ← assertHash (value.get? "universe_content_hash") "universe_content_hash"
  let manifestHash ← assertHash (value.get? "source_manifest_hash") "source_manifest_hash"
  require (!(decide (declared ≠ PORTFOLIO_UNKNOWN) && confirmedAt.isNone))
    ("state " ++ declared.text ++ " requires last_real_complete_confirmed_at")
  return ⟨generatedAt, declared, confirmedAt, contentHash, manifestHash⟩

/-- A record without its `received_at`. -/
def withoutReceivedAt : Json → Json
  | .obj fields => .obj (fields.filter fun field => field.1 ≠ "received_at")
  | value => value

/-- A record's `received_at`, unless it is missing or empty. -/
def receivedAtOf (parsed : Json) : Option String :=
  match parsed.get? "received_at" with
  | some (.str s) => if s = "" then none else some s
  | _ => none

/-- The reading of a stored text: absent, or the value it parses to, if it does. -/
def readStored {α : Type} (validate : Json → Except String α) (description : String)
    (raw : Option (Option Json)) : Except String (Option (α × String)) :=
  match raw with
  | none => .ok none
  | some none => .error s!"stored {description} is invalid JSON"
  | some (some parsed) =>
    match receivedAtOf parsed with
    | none => .error s!"stored {description} is missing received_at"
    | some receivedAt => do
      let validated ← validate (withoutReceivedAt parsed)
      return some (validated, receivedAt)

def readPortfolioStatus (R : Runtime) (raw : Option (Option Json)) :
    Except String (Option StoredPortfolioStatus) :=
  Option.map (fun stored => ⟨stored.1, stored.2⟩) <$>
    readStored (validatePortfolioStatus R) "portfolio status" raw

def readLiveUniverse (P : Platform) (R : Runtime) (raw : Option (Option Json)) :
    Except String (Option StoredLiveUniverse) :=
  Option.map (fun stored => ⟨stored.1, stored.2⟩) <$>
    readStored (validateLiveUniverse P R) "quote universe" raw

/-! ## The states at an instant -/

/-- An age in milliseconds, compared with a number of seconds as its quotient by 1000 is. -/
def withinSeconds (ageMs seconds : ℤ) : Bool := decide (ageMs ≤ seconds * 1000)

def derivePortfolioState (R : Runtime) (lastRealCompleteConfirmedAt : Option String)
    (lkgPresent : Bool) (now : ℤ) : PortfolioState :=
  if !lkgPresent then PORTFOLIO_UNKNOWN
  else
    match lastRealCompleteConfirmedAt with
    | none => PORTFOLIO_UNKNOWN
    | some confirmedAt =>
      if confirmedAt = "" then PORTFOLIO_UNKNOWN
      else
        match R.dateParse confirmedAt with
        | none => PORTFOLIO_UNKNOWN
        | some parsed =>
          if now - parsed < -FUTURE_TOLERANCE_SECONDS * 1000 then PORTFOLIO_UNKNOWN
          else if withinSeconds (now - parsed) LIVE_COMPLETE_MAX_AGE_SECONDS then LIVE_COMPLETE
          else if withinSeconds (now - parsed) LKG_VALID_MAX_AGE_SECONDS then LKG_VALID
          else PORTFOLIO_UNKNOWN

def mostConservativePortfolioState : List PortfolioState → PortfolioState
  | [] => PORTFOLIO_UNKNOWN
  | first :: states => (first :: states).foldl (fun result state =>
      if state.conservatism > result.conservatism then state else result) first

def reconcilePortfolioState (declared recomputed : PortfolioState) : PortfolioState :=
  mostConservativePortfolioState [declared, recomputed]

def downgradePortfolioState (state floor : PortfolioState) : PortfolioState :=
  mostConservativePortfolioState [state, floor]

def isOverlayAllowed (state : PortfolioState) : Bool :=
  decide (state ≠ PORTFOLIO_UNKNOWN)

inductive LiveUniverseFreshnessAnchor where
  | LRCCA
  | GENERATED_AT
deriving DecidableEq

structure LiveUniverseFreshnessResolution where
  anchor : LiveUniverseFreshnessAnchor
  anchor_fallback : Bool
  anchor_timestamp : String
  anchor_age_seconds : Option ℤ
  fresh : Bool

def resolveLiveUniverseFreshness (R : Runtime) (U : StoredLiveUniverse) (lrcca : Option String)
    (now maxAgeSeconds : ℤ) : LiveUniverseFreshnessResolution :=
  let anchor : LiveUniverseFreshnessAnchor :=
    if lrcca.any (· ≠ "") then .LRCCA else .GENERATED_AT
  let anchorTimestamp := lrcca.getD U.generated_at
  let ageMs := (R.dateParse anchorTimestamp).map (now - ·)
  { anchor := anchor
    anchor_fallback := decide (anchor = .GENERATED_AT)
    anchor_timestamp := anchorTimestamp
    anchor_age_seconds := ageMs.map fun ms => (ms + 500) / 1000
    fresh := ageMs.any fun ms =>
      decide (-LIVE_UNIVERSE_FUTURE_TOLERANCE_SECONDS * 1000 ≤ ms) &&
        withinSeconds ms maxAgeSeconds }

structure PortfolioAnchorView where
  anchor : LiveUniverseFreshnessAnchor
  anchor_fallback : Bool
  fresh : Bool

structure PortfolioPresentationInput where
  universePresent : Bool
  universeContentHash : Option String
  universeManifestHash : Option String
  status : Option PortfolioStatusPayload
  anchor : Option PortfolioAnchorView
  now : ℤ

inductive StateSource where
  | STATUS_DOC
  | STATUS_DOC_MISSING
deriving DecidableEq

structure PortfolioPresentation where
  portfolio_state : PortfolioState
  declared_state : Option PortfolioState
  state_source : StateSource
  state_reconciled : Bool
  stale : Bool
  apply_overlay : Bool
  fresh : Bool
  freshness_anchor : Option LiveUniverseFreshnessAnchor
  freshness_anchor_fallback : Bool
  cross_check_mismatch : Bool

def crossCheckMismatch (input : PortfolioPresentationInput) (status : PortfolioStatusPayload) : Bool :=
  !input.universePresent ||
    decide (input.universeContentHash ≠ some status.universe_content_hash) ||
    decide (input.universeManifestHash ≠ some status.source_manifest_hash)

/-- The declared state, reconciled with the derived one and lowered where the hashes differ. -/
def presentedState (R : Runtime) (input : PortfolioPresentationInput)
    (status : PortfolioStatusPayload) : PortfolioState :=
  let recomputed := derivePortfolioState R status.last_real_complete_confirmed_at
    input.universePresent input.now
  let state := reconcilePortfolioState status.state recomputed
  if crossCheckMismatch input status then downgradePortfolioState state LKG_VALID else state

def resolvePortfolioPresentation (R : Runtime) (input : PortfolioPresentationInput) :
    PortfolioPresentation :=
  let fresh := input.universePresent && input.anchor.any (·.fresh)
  let freshnessAnchor := input.anchor.map (·.anchor)
  let freshnessAnchorFallback := input.anchor.any (·.anchor_fallback)
  match input.status with
  | none =>
    { portfolio_state := PORTFOLIO_UNKNOWN
      declared_state := none
      state_source := .STATUS_DOC_MISSING
      state_reconciled := false
      stale := true
      apply_overlay := false
      fresh := fresh
      freshness_anchor := freshnessAnchor
      freshness_anchor_fallback := freshnessAnchorFallback
      cross_check_mismatch := false }
  | some status =>
    let state := presentedState R input status
    { portfolio_state := state
      declared_state := some status.state
      state_source := .STATUS_DOC
      state_reconciled := decide (state ≠ status.state)
      stale := decide (state ≠ LIVE_COMPLETE)
      apply_overlay := fresh && isOverlayAllowed state
      fresh := fresh
      freshness_anchor := freshnessAnchor
      freshness_anchor_fallback := freshnessAnchorFallback
      cross_check_mismatch := crossCheckMismatch input status }

/-! ## The caller's view -/

/-- What the key-value store keeps under its two keys. -/
structure LiveStore where
  liveUniverse : Option (Option Json)
  status : Option (Option Json)

structure LivePresentation where
  liveUniverse : Option StoredLiveUniverse
  status : Option StoredPortfolioStatus
  presentation : PortfolioPresentation

/-- A status document that cannot be read counts as absent. -/
def readPortfolioStatusSafe (R : Runtime) (raw : Option (Option Json)) :
    Option StoredPortfolioStatus :=
  match readPortfolioStatus R raw with
  | .ok status => status
  | .error _ => none

/-- The universe that is presented, where it may or must not be unreadable. -/
def readPresentedUniverse (P : Platform) (R : Runtime) (store : LiveStore)
    (tolerateUnreadableUniverse : Bool) : Except String (Option StoredLiveUniverse) :=
  match readLiveUniverse P R store.liveUniverse with
  | .ok U => .ok U
  | .error message => if tolerateUnreadableUniverse then .ok none else .error message

def anchorView (R : Runtime) (status : Option StoredPortfolioStatus) (now : ℤ)
    (U : StoredLiveUniverse) : PortfolioAnchorView :=
  let anchor := resolveLiveUniverseFreshness R U
    (status.bind (·.last_real_complete_confirmed_at)) now DEFAULT_LIVE_UNIVERSE_MAX_AGE_SECONDS
  ⟨anchor.anchor, anchor.anchor_fallback, anchor.fresh⟩

def presentationInput (R : Runtime) (U : Option StoredLiveUniverse)
    (status : Option StoredPortfolioStatus) (now : ℤ) : PortfolioPresentationInput where
  universePresent := U.isSome
  universeContentHash := U.map (·.content_hash)
  universeManifestHash := U.map (·.source_manifest_hash)
  status := status.map (·.toPortfolioStatusPayload)
  anchor := U.map (anchorView R status now)
  now := now

def resolveLivePresentation (P : Platform) (R : Runtime) (kv : Option LiveStore) (now : ℤ)
    (tolerateUnreadableUniverse : Bool) : Except String LivePresentation :=
  match kv with
  | none => .ok ⟨none, none, resolvePortfolioPresentation R (presentationInput R none none now)⟩
  | some store => do
    let U ← readPresentedUniverse P R store tolerateUnreadableUniverse
    let status := readPortfolioStatusSafe R store.status
    return ⟨U, status, resolvePortfolioPresentation R (presentationInput R U status now)⟩

/-! ## What a step of the rule does -/

@[simp] theorem withinSeconds_iff (ms seconds : ℤ) :
    withinSeconds ms seconds = true ↔ ms ≤ seconds * 1000 :=
  decide_eq_true_iff

theorem mostConservative_pair (a b : PortfolioState) :
    mostConservativePortfolioState [a, b] = max a b := by
  cases a <;> cases b <;> rfl

/-- The presented state is the greatest of the declared state, the derived one and the floor that
differing hashes put under it. -/
theorem presentedState_eq (R : Runtime) (input : PortfolioPresentationInput)
    (status : PortfolioStatusPayload) :
    presentedState R input status =
      max (max status.state (derivePortfolioState R status.last_real_complete_confirmed_at
        input.universePresent input.now))
        (if crossCheckMismatch input status then LKG_VALID else LIVE_COMPLETE) := by
  have hleast : ∀ a : PortfolioState, max a LIVE_COMPLETE = a := by
    rintro (_ | _ | _) <;> rfl
  simp only [presentedState, reconcilePortfolioState, downgradePortfolioState,
    mostConservative_pair]
  split_ifs with h
  · rfl
  · exact (hleast _).symm

/-- The confirmation's instant, where the derivation finds one. -/
def confirmedInstant (R : Runtime) (lrcca : Option String) : Option ℤ :=
  lrcca.bind fun text => if text = "" then none else R.dateParse text

/-- The state of an age in milliseconds. -/
def stateOfAge (ms : ℤ) : PortfolioState :=
  if ms < -FUTURE_TOLERANCE_SECONDS * 1000 then PORTFOLIO_UNKNOWN
  else if withinSeconds ms LIVE_COMPLETE_MAX_AGE_SECONDS then LIVE_COMPLETE
  else if withinSeconds ms LKG_VALID_MAX_AGE_SECONDS then LKG_VALID
  else PORTFOLIO_UNKNOWN

theorem derivePortfolioState_eq (R : Runtime) (lrcca : Option String) (present : Bool) (now : ℤ) :
    derivePortfolioState R lrcca present now =
      if present then ((confirmedInstant R lrcca).map fun at_ => stateOfAge (now - at_)).getD
        PORTFOLIO_UNKNOWN
      else PORTFOLIO_UNKNOWN := by
  unfold derivePortfolioState confirmedInstant
  cases present with
  | false => rfl
  | true =>
    cases lrcca with
    | none => rfl
    | some text =>
      by_cases htext : text = ""
      · simp [htext]
      · cases hparse : R.dateParse text with
        | none => simp [htext, hparse]
        | some parsed => simp [htext, hparse, stateOfAge]

/-- An age that is not unknown lies in the window of ten days. -/
theorem window_of_stateOfAge {ms : ℤ} (h : stateOfAge ms ≠ PORTFOLIO_UNKNOWN) :
    -LIVE_UNIVERSE_FUTURE_TOLERANCE_SECONDS * 1000 ≤ ms ∧
      withinSeconds ms DEFAULT_LIVE_UNIVERSE_MAX_AGE_SECONDS = true := by
  unfold stateOfAge at h
  split_ifs at h with hfuture hcomplete hvalid
  · exact absurd rfl h
  · refine ⟨not_lt.1 hfuture, ?_⟩
    rw [withinSeconds_iff] at hcomplete ⊢
    unfold LIVE_COMPLETE_MAX_AGE_SECONDS at hcomplete
    unfold DEFAULT_LIVE_UNIVERSE_MAX_AGE_SECONDS
    omega
  · exact ⟨not_lt.1 hfuture, hvalid⟩
  · exact absurd rfl h

/-- From age zero on, the older is the more conservative. -/
theorem stateOfAge_mono {ms later : ℤ} (hms : 0 ≤ ms) (hle : ms ≤ later) :
    stateOfAge ms ≤ stateOfAge later := by
  have hnow : ¬ ms < -FUTURE_TOLERANCE_SECONDS * 1000 := by
    simp only [FUTURE_TOLERANCE_SECONDS]
    omega
  have hlater : ¬ later < -FUTURE_TOLERANCE_SECONDS * 1000 := by
    simp only [FUTURE_TOLERANCE_SECONDS]
    omega
  simp only [stateOfAge, hnow, hlater, if_false, withinSeconds_iff, LIVE_COMPLETE_MAX_AGE_SECONDS,
    LKG_VALID_MAX_AGE_SECONDS]
  clear hnow hlater
  split_ifs <;> first | decide | omega

/-- The instant is at or after the confirmation's, where there is one. -/
def Confirmed (R : Runtime) (lrcca : Option String) (now : ℤ) : Prop :=
  ∀ text ∈ lrcca, ∀ confirmed ∈ R.dateParse text, confirmed ≤ now

theorem derivePortfolioState_mono {R : Runtime} {lrcca : Option String} {now later : ℤ}
    (present : Bool) (hconfirmed : Confirmed R lrcca now) (hle : now ≤ later) :
    derivePortfolioState R lrcca present now ≤ derivePortfolioState R lrcca present later := by
  rw [derivePortfolioState_eq, derivePortfolioState_eq]
  cases present with
  | false => exact le_refl _
  | true =>
    cases hinstant : confirmedInstant R lrcca with
    | none => exact le_refl _
    | some confirmed =>
      have hat : confirmed ≤ now := by
        unfold confirmedInstant at hinstant
        obtain ⟨text, htext, hparse⟩ := Option.bind_eq_some_iff.1 hinstant
        split_ifs at hparse
        exact hconfirmed text htext confirmed hparse
      exact stateOfAge_mono (by omega) (by omega)

/-- A derived state that is not unknown is anchored by a universe that is fresh. -/
theorem fresh_of_derived {R : Runtime} {U : Option StoredLiveUniverse}
    {status : StoredPortfolioStatus} {now : ℤ}
    (h : derivePortfolioState R status.last_real_complete_confirmed_at U.isSome now
      ≠ PORTFOLIO_UNKNOWN) :
    (presentationInput R U (some status) now).anchor.any (·.fresh) = true := by
  rw [derivePortfolioState_eq] at h
  cases U with
  | none => exact absurd rfl h
  | some U =>
    cases hinstant : confirmedInstant R status.last_real_complete_confirmed_at with
    | none =>
      rw [hinstant] at h
      exact absurd rfl h
    | some confirmed =>
      rw [hinstant] at h
      obtain ⟨text, htext, hparse⟩ := Option.bind_eq_some_iff.1 hinstant
      split_ifs at hparse
      obtain ⟨hfuture, hage⟩ := window_of_stateOfAge h
      simp only [presentationInput, anchorView, resolveLiveUniverseFreshness, Option.map_some,
        Option.any_some, Option.bind_some, htext, Option.getD_some, hparse, hage, Bool.and_true]
      exact decide_eq_true hfuture

/-! ## The presentation -/

theorem resolve_cases {P : Platform} {R : Runtime} {kv : Option LiveStore} {now : ℤ}
    {tolerate : Bool} {L : LivePresentation}
    (h : resolveLivePresentation P R kv now tolerate = .ok L) :
    L.presentation =
        resolvePortfolioPresentation R (presentationInput R L.liveUniverse L.status now) ∧
      ∀ later, resolveLivePresentation P R kv later tolerate =
        .ok ⟨L.liveUniverse, L.status,
          resolvePortfolioPresentation R (presentationInput R L.liveUniverse L.status later)⟩ := by
  cases kv with
  | none =>
    cases h
    exact ⟨rfl, fun _ => rfl⟩
  | some store =>
    cases hread : readPresentedUniverse P R store tolerate with
    | error message =>
      rw [resolveLivePresentation, hread] at h
      cases h
    | ok U =>
      rw [resolveLivePresentation, hread] at h
      cases h
      refine ⟨rfl, fun later => ?_⟩
      rw [resolveLivePresentation, hread]
      rfl

section Presented

variable {R : Runtime} {U : Option StoredLiveUniverse} {status : Option StoredPortfolioStatus}

/-- What is presented of a read universe and a read status document at an instant. -/
abbrev presented (R : Runtime) (U : Option StoredLiveUniverse)
    (status : Option StoredPortfolioStatus) (now : ℤ) : PortfolioPresentation :=
  resolvePortfolioPresentation R (presentationInput R U status now)

theorem presented_state_some (status : StoredPortfolioStatus) (now : ℤ) :
    (presented R U (some status) now).portfolio_state =
      presentedState R (presentationInput R U (some status) now)
        status.toPortfolioStatusPayload := rfl

theorem declared_le (status : StoredPortfolioStatus) (now : ℤ) :
    status.state ≤ (presented R U (some status) now).portfolio_state := by
  rw [presented_state_some, presentedState_eq]
  exact le_max_of_le_left (le_max_left _ _)

theorem derived_le (status : StoredPortfolioStatus) (now : ℤ) :
    derivePortfolioState R status.last_real_complete_confirmed_at U.isSome now ≤
      (presented R U (some status) now).portfolio_state := by
  rw [presented_state_some, presentedState_eq]
  exact le_max_of_le_left (le_max_right _ _)

theorem not_complete_of_mismatch {U : StoredLiveUniverse} {status : StoredPortfolioStatus}
    {now : ℤ} (h : U.content_hash ≠ status.universe_content_hash ∨
      U.source_manifest_hash ≠ status.source_manifest_hash) :
    (presented R (some U) (some status) now).portfolio_state ≠ LIVE_COMPLETE := by
  have hmismatch : crossCheckMismatch (presentationInput R (some U) (some status) now)
      status.toPortfolioStatusPayload = true := by
    obtain h | h := h <;> simp [crossCheckMismatch, presentationInput, h]
  rw [presented_state_some, presentedState_eq, if_pos hmismatch]
  intro hcomplete
  have hfloor : LKG_VALID ≤ LIVE_COMPLETE := hcomplete ▸ le_max_right _ _
  exact absurd hfloor (by decide)

theorem overlay_iff (status : Option StoredPortfolioStatus) (now : ℤ) :
    (presented R U status now).apply_overlay = true ↔
      (presented R U status now).portfolio_state ≠ PORTFOLIO_UNKNOWN := by
  cases status with
  | none => simp [presented, resolvePortfolioPresentation, presentationInput]
  | some status =>
    have happly : (presented R U (some status) now).apply_overlay =
        ((U.isSome && (presentationInput R U (some status) now).anchor.any (·.fresh)) &&
          isOverlayAllowed (presented R U (some status) now).portfolio_state) := rfl
    rw [happly, Bool.and_eq_true, isOverlayAllowed, decide_eq_true_iff, and_iff_right_iff_imp]
    intro hstate
    have hderived : derivePortfolioState R status.last_real_complete_confirmed_at U.isSome now
        ≠ PORTFOLIO_UNKNOWN := fun hunknown =>
      hstate (le_antisymm (le_unknown _) (hunknown ▸ derived_le status now))
    have hpresent : U.isSome = true := by
      cases U with
      | none => exact absurd rfl hderived
      | some U => rfl
    rw [hpresent, fresh_of_derived hderived]
    rfl

theorem presented_mono {now later : ℤ}
    (hconfirmed : ∀ s ∈ status, Confirmed R s.last_real_complete_confirmed_at now)
    (hle : now ≤ later) :
    (presented R U status now).portfolio_state ≤ (presented R U status later).portfolio_state := by
  cases status with
  | none => exact le_refl _
  | some status =>
    rw [presented_state_some, presented_state_some, presentedState_eq, presentedState_eq]
    refine max_le_max (max_le_max (le_refl _) ?_) (le_refl _)
    exact derivePortfolioState_mono U.isSome (hconfirmed status rfl) hle

end Presented

/-- The presented state is at least as conservative as the declared and the derived one, is never
complete under differing hashes, decides the overlay alone, and grows with time from the
confirmation on. -/
theorem presentation_conservative {P : Platform} {R : Runtime} {kv : Option LiveStore} {now : ℤ}
    {tolerate : Bool} {L : LivePresentation}
    (h : resolveLivePresentation P R kv now tolerate = .ok L) :
    (∀ status ∈ L.status, status.state ≤ L.presentation.portfolio_state ∧
      derivePortfolioState R status.last_real_complete_confirmed_at L.liveUniverse.isSome now ≤
        L.presentation.portfolio_state) ∧
    (∀ U ∈ L.liveUniverse, ∀ status ∈ L.status,
      (U.content_hash ≠ status.universe_content_hash ∨
        U.source_manifest_hash ≠ status.source_manifest_hash) →
      L.presentation.portfolio_state ≠ LIVE_COMPLETE) ∧
    (L.presentation.apply_overlay = true ↔
      L.presentation.portfolio_state ≠ PORTFOLIO_UNKNOWN) ∧
    ∀ later, (∀ status ∈ L.status, Confirmed R status.last_real_complete_confirmed_at now) →
      now ≤ later → ∃ L', resolveLivePresentation P R kv later tolerate = .ok L' ∧
        L.presentation.portfolio_state ≤ L'.presentation.portfolio_state := by
  obtain ⟨U, status, presentation⟩ := L
  obtain ⟨hnow, hlater⟩ := resolve_cases h
  obtain rfl : presentation = presented R U status now := hnow
  refine ⟨?_, ?_, overlay_iff status now, fun later hconfirmed hle =>
    ⟨_, hlater later, presented_mono hconfirmed hle⟩⟩
  · rintro status rfl
    exact ⟨declared_le status now, derived_le status now⟩
  · rintro U rfl status rfl hhash
    exact not_complete_of_mismatch hhash

/-! A confirmed universe, a day after its confirmation. -/

/-- The runtime reads the one date there is. -/
def confirmedRuntime : Runtime :=
  { exampleRuntime with
    dateParse := fun text =>
      if text = "2026-09-29T06:30:00+08:00" then some 1790634600000 else none }

def confirmedStatus : StoredPortfolioStatus where
  generated_at := "2026-09-29T06:30:00+08:00"
  state := LIVE_COMPLETE
  last_real_complete_confirmed_at := some "2026-09-29T06:30:00+08:00"
  universe_content_hash := "sha256:" ++ exampleHash
  source_manifest_hash := "sha256:" ++ exampleHash
  received_at := "2026-09-29T06:30:07+08:00"

def confirmedStore : LiveStore where
  liveUniverse := some (some (exampleValue.set "received_at" (.str "2026-09-29T06:30:07+08:00")))
  status := some (some (.obj [("schema_version", .str PORTFOLIO_STATUS_SCHEMA),
    ("generated_at", .str "2026-09-29T06:30:00+08:00"), ("state", .str "LIVE_COMPLETE"),
    ("last_real_complete_confirmed_at", .str "2026-09-29T06:30:00+08:00"),
    ("universe_content_hash", .str ("sha256:" ++ exampleHash)),
    ("source_manifest_hash", .str ("sha256:" ++ exampleHash)),
    ("received_at", .str "2026-09-29T06:30:07+08:00")]))

theorem readLiveUniverse_confirmedStore :
    readLiveUniverse examplePlatform confirmedRuntime confirmedStore.liveUniverse =
      .ok (some exampleUniverse) := by
  have hvalid : validateLiveUniverse examplePlatform confirmedRuntime exampleValue =
      .ok examplePayload := validateLiveUniverse_exampleValue
  have hpayload : withoutReceivedAt
      (exampleValue.set "received_at" (.str "2026-09-29T06:30:07+08:00")) = exampleValue := by
    decide
  have hreceived : receivedAtOf
      (exampleValue.set "received_at" (.str "2026-09-29T06:30:07+08:00")) =
        some "2026-09-29T06:30:07+08:00" := by decide
  simp only [readLiveUniverse, confirmedStore, readStored, hreceived, hpayload, hvalid]
  rfl

theorem readPortfolioStatusSafe_confirmedStore :
    readPortfolioStatusSafe confirmedRuntime confirmedStore.status = some confirmedStatus := by
  decide

theorem resolve_confirmedStore (now : ℤ) :
    resolveLivePresentation examplePlatform confirmedRuntime (some confirmedStore) now false =
      .ok ⟨some exampleUniverse, some confirmedStatus,
        presented confirmedRuntime (some exampleUniverse) (some confirmedStatus) now⟩ := by
  simp only [resolveLivePresentation, readPresentedUniverse, readLiveUniverse_confirmedStore,
    readPortfolioStatusSafe_confirmedStore]
  rfl

theorem presentation_conservative_confirmed :
    LIVE_COMPLETE ≤ (presented confirmedRuntime (some exampleUniverse) (some confirmedStatus)
        1790721000000).portfolio_state ∧
      (presented confirmedRuntime (some exampleUniverse) (some confirmedStatus)
        1790721000000).apply_overlay = true ∧
      ∃ L', resolveLivePresentation examplePlatform confirmedRuntime (some confirmedStore)
          1790721000001 false = .ok L' ∧
        (presented confirmedRuntime (some exampleUniverse) (some confirmedStatus)
          1790721000000).portfolio_state ≤ L'.presentation.portfolio_state := by
  have h := presentation_conservative (resolve_confirmedStore 1790721000000)
  have hconfirmed : Confirmed confirmedRuntime confirmedStatus.last_real_complete_confirmed_at
      1790721000000 := by
    intro text htext confirmed hdate
    cases htext
    cases hdate
    decide
  refine ⟨(h.1 confirmedStatus rfl).1, h.2.2.1.2 (by decide), h.2.2.2 1790721000001 ?_ (by decide)⟩
  intro status hstatus
  cases hstatus
  exact hconfirmed

end QuantproCollector.LiveUniverse

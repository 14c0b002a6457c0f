import SkidMonitor.Client.AvatarProfile
import SkidMonitor.Client.Signal
import SkidMonitor.Lib.Run

/-! The cache of the avatar model, and the thread that decodes models for it. -/
namespace SkidMonitor.Client

open List
open Profile (AvatarReactionProfile)

structure AvatarModelLoadRequest where
  generation : UInt64
  path : Str
  animationPaths : List Str
  shaderPath : Str
  deriving DecidableEq

structure AvatarModelLoadResult (μ : Type) where
  generation : UInt64
  result : Except Str μ

/-- The two channels and the thread between them. -/
structure AvatarModelLoader (μ : Type) where
  requests : List AvatarModelLoadRequest
  decoding : Option AvatarModelLoadRequest
  results : List (AvatarModelLoadResult μ)
  running : Bool

namespace AvatarModelLoader

def start {μ : Type} : AvatarModelLoader μ := ⟨[], none, [], true⟩

/-- The requests whose result the cache has not taken yet. -/
def outstanding {μ : Type} (l : AvatarModelLoader μ) : ℕ :=
  l.requests.length + l.decoding.toList.length + l.results.length

end AvatarModelLoader

structure AvatarModelCache (μ : Type) where
  requestedPath : Option Str
  requestedAnimationPaths : Option (List Str)
  requestedShaderPath : Option Str
  asset : Option μ
  error : Option Str
  generation : UInt64
  activeGeneration : Option UInt64
  loader : AvatarModelLoader μ

namespace AvatarModelCache

variable {μ : Type}

def default : AvatarModelCache μ := ⟨none, none, none, none, none, 0, none, .start⟩

def path (c : AvatarModelCache μ) : Str := c.requestedPath.getD []

/-- What `sync` does before it turns to the loader. -/
def request (c : AvatarModelCache μ) (profile : AvatarReactionProfile) : AvatarModelCache μ :=
  let requestedPath := Text.trim profile.modelPath
  let requestedAnimationPaths := (profile.animationPaths.map Text.trim).filter (!·.isEmpty)
  let requestedShaderPath := Text.trim profile.shaderPath
  if c.requestedPath ≠ some requestedPath ∨
      c.requestedAnimationPaths ≠ some requestedAnimationPaths ∨
      c.requestedShaderPath ≠ some requestedShaderPath then
    { c with
      requestedPath := some requestedPath
      requestedAnimationPaths := some requestedAnimationPaths
      requestedShaderPath := some requestedShaderPath
      asset := none
      error := none
      generation := c.generation + 1 }
  else c

def pollLoader (c : AvatarModelCache μ) : AvatarModelCache μ :=
  match c.loader.results with
  | [] =>
    if c.loader.running then c
    else
      { c with
        activeGeneration := none
        error :=
          if c.path.isEmpty then c.error
          else some "character model loader stopped before returning a result".toList }
  | completed :: results =>
    let c := { c with activeGeneration := none, loader := { c.loader with results } }
    if completed.generation ≠ c.generation then c
    else match completed.result with
      | .ok model => { c with asset := some model }
      | .error error => { c with error := some error }

/-- The request to be sent, if one is needed. -/
def nextRequest (c : AvatarModelCache μ) : Option AvatarModelLoadRequest :=
  if c.path.isEmpty ∨ c.asset.isSome ∨ c.error.isSome ∨ c.activeGeneration.isSome then none
  else some ⟨c.generation, c.path, c.requestedAnimationPaths.getD [], c.requestedShaderPath.getD []⟩

def startLoadIfNeeded (c : AvatarModelCache μ) : AvatarModelCache μ :=
  match c.nextRequest with
  | none => c
  | some request =>
    if c.loader.running then
      { c with
        activeGeneration := some c.generation
        loader := { c.loader with requests := c.loader.requests ++ [request] } }
    else
      { c with
        error :=
          some "failed to queue character model load: sending on a closed channel".toList }

def loading (c : AvatarModelCache μ) : Bool :=
  !c.path.isEmpty && c.asset.isNone && c.error.isNone

def invalidate (c : AvatarModelCache μ) : AvatarModelCache μ :=
  { c with
    requestedPath := none
    requestedAnimationPaths := none
    requestedShaderPath := none
    asset := none
    error := none
    generation := c.generation + 1 }

end AvatarModelCache

/-- The decoder may read files, and may panic: what it makes of a request depends on what it finds. -/
abbrev Decoder (ι μ : Type) := AvatarModelLoadRequest → ι → Option (Except Str μ)

/-- What the thread answers, a caught panic included. -/
def loadResult {ι μ : Type} (decode : Decoder ι μ) (request : AvatarModelLoadRequest) (found : ι) :
    Except Str μ :=
  (decode request found).getD (.error "character model decoder rejected malformed input".toList)

/-- The calls on the cache, with `sync` in two parts, and the moves of the thread. -/
inductive AvatarEvent (ι : Type) where
  | sync (profile : AvatarReactionProfile)
  | startLoad
  | invalidate
  | received
  | decoded (found : ι)

/-- The cache, and whether a `sync` is under way. -/
structure AvatarState (μ : Type) where
  cache : AvatarModelCache μ
  syncing : Bool

namespace AvatarState

variable {ι μ : Type} (decode : Decoder ι μ)

def initial : AvatarState μ := ⟨.default, false⟩

/-- The thread waits for a request as long as the cache is there: it does not end. -/
def step (s : AvatarState μ) : AvatarEvent ι → Option (AvatarState μ)
  | .sync profile =>
    if s.syncing then none else some ⟨(s.cache.request profile).pollLoader, true⟩
  | .startLoad => if s.syncing then some ⟨s.cache.startLoadIfNeeded, false⟩ else none
  | .invalidate => if s.syncing then none else some ⟨s.cache.invalidate, false⟩
  | .received => match s.cache.loader.requests, s.cache.loader.decoding with
    | request :: requests, none =>
      some { s with cache := { s.cache with
        loader := { s.cache.loader with requests, decoding := some request } } }
    | _, _ => none
  | .decoded found => match s.cache.loader.decoding with
    | some request =>
      some { s with cache := { s.cache with
        loader := { s.cache.loader with
          decoding := none
          results := s.cache.loader.results ++
            [⟨request.generation, loadResult decode request found⟩] } } }
    | none => none

abbrev run : AvatarState μ → List (AvatarEvent ι) → Option (AvatarState μ) :=
  Runs.run (step decode)

/-- How often a run takes a new generation. -/
def generations : AvatarState μ → List (AvatarEvent ι) → ℕ
  | _, [] => 0
  | s, e :: events => match step decode s e with
    | none => 0
    | some t =>
      (if t.cache.generation = s.cache.generation then 0 else 1) + generations t events

variable {decode} {events after : List (AvatarEvent ι)} {e : AvatarEvent ι} {found : Option ι}
  {s t : AvatarState μ} {c c' : AvatarModelCache μ} {r : AvatarModelLoadRequest}

/-- The request is what the cache asks for. -/
structure Requested (c : AvatarModelCache μ) (r : AvatarModelLoadRequest) : Prop where
  path : c.requestedPath = some r.path
  animationPaths : c.requestedAnimationPaths = some r.animationPaths
  shaderPath : c.requestedShaderPath = some r.shaderPath

variable (decode) in
/-- A run in which the request was sent; `after` has come since then, and nothing was invalidated. -/
structure Made (events after : List (AvatarEvent ι)) (r : AvatarModelLoadRequest) : Prop where
  sent : ∃ before, ∃ u : AvatarState μ, events = before ++ .startLoad :: after ∧
    run decode initial before = some u ∧ u.cache.nextRequest = some r
  valid : .invalidate ∉ after

variable (decode) in
/-- The request of the cache was sent, and what was found then has been decoded. -/
def Origin (events : List (AvatarEvent ι)) (c : AvatarModelCache μ) (r : AvatarModelLoadRequest)
    (found : Option ι) : Prop :=
  Requested c r ∧ ∃ after, Made decode events after r ∧ ∀ x ∈ found, .decoded x ∈ after

variable (decode) in
/-- A request that is not of an older generation is the one of the cache. -/
structure Fresh (events : List (AvatarEvent ι)) (c : AvatarModelCache μ)
    (r : AvatarModelLoadRequest) (found : Option ι) : Prop where
  generation : r.generation ≤ c.generation
  origin : r.generation = c.generation → Origin decode events c r found

/-- The asset or the error of the cache is this result. -/
def Holds (c : AvatarModelCache μ) : Except Str μ → Prop
  | .ok model => c.asset = some model
  | .error text => c.error = some text

variable (decode) in
/-- Where everything in the cache and on its way to it comes from. -/
structure Traced (events : List (AvatarEvent ι)) (c : AvatarModelCache μ) : Prop where
  running : c.loader.running = true
  whole : c.requestedPath.isSome →
    c.requestedAnimationPaths.isSome ∧ c.requestedShaderPath.isSome
  outstanding : c.loader.outstanding = if c.activeGeneration.isSome then 1 else 0
  requests : ∀ r ∈ c.loader.requests ++ c.loader.decoding.toList, Fresh decode events c r none
  results : ∀ completed ∈ c.loader.results, ∃ r x, completed.generation = r.generation ∧
    completed.result = loadResult decode r x ∧ Fresh decode events c r (some x)
  held : ∀ result, Holds c result → ∃ r x, loadResult decode r x = result ∧
    Origin decode events c r (some x)

theorem Made.later (h : Made (μ := μ) decode events after r) (he : e ≠ .invalidate) :
    Made (μ := μ) decode (events ++ [e]) (after ++ [e]) r := by
  obtain ⟨⟨before, u, rfl, hu, hr⟩, hvalid⟩ := h
  refine ⟨⟨before, u, by simp, hu, hr⟩, ?_⟩
  rw [mem_append, mem_singleton]
  rintro (hmem | rfl)
  · exact hvalid hmem
  · exact he rfl

theorem Origin.later (h : Origin decode events c r found) (he : e ≠ .invalidate) :
    Origin decode (events ++ [e]) c r found := by
  obtain ⟨hrequested, after, hmade, hfound⟩ := h
  exact ⟨hrequested, after ++ [e], hmade.later he, fun x hx =>
    mem_append_left _ (hfound x hx)⟩

theorem Fresh.later (h : Fresh decode events c r found) (he : e ≠ .invalidate) :
    Fresh decode (events ++ [e]) c r found :=
  ⟨h.generation, fun hsame => (h.origin hsame).later he⟩

theorem Traced.later (h : Traced decode events c) (he : e ≠ .invalidate) :
    Traced decode (events ++ [e]) c := by
  refine ⟨h.running, h.whole, h.outstanding, fun r hr => (h.requests r hr).later he, ?_, ?_⟩
  · intro completed hmem
    obtain ⟨r, x, hgeneration, hresult, hfresh⟩ := h.results completed hmem
    exact ⟨r, x, hgeneration, hresult, hfresh.later he⟩
  · intro result hheld
    obtain ⟨r, x, hresult, horigin⟩ := h.held result hheld
    exact ⟨r, x, hresult, horigin.later he⟩

/-- Both caches ask for the same, in the same generation. -/
structure Alike (c c' : AvatarModelCache μ) : Prop where
  path : c'.requestedPath = c.requestedPath
  animationPaths : c'.requestedAnimationPaths = c.requestedAnimationPaths
  shaderPath : c'.requestedShaderPath = c.requestedShaderPath
  generation : c'.generation = c.generation

theorem Origin.alike (h : Origin decode events c r found) (halike : Alike c c') :
    Origin decode events c' r found := by
  obtain ⟨⟨hpath, hanimations, hshader⟩, hmade⟩ := h
  exact ⟨⟨halike.path.trans hpath, halike.animationPaths.trans hanimations,
    halike.shaderPath.trans hshader⟩, hmade⟩

theorem Fresh.alike (h : Fresh decode events c r found) (halike : Alike c c') :
    Fresh decode events c' r found := by
  refine ⟨?_, fun hsame => ?_⟩
  · rw [halike.generation]
    exact h.generation
  · rw [halike.generation] at hsame
    exact (h.origin hsame).alike halike

theorem holds_of_kept {P : Except Str μ → Prop} (hasset : c'.asset = c.asset)
    (herror : c'.error = c.error) (result : Except Str μ) (h : Holds c' result) :
    Holds c result ∨ P result := by
  cases result with
  | ok model => exact .inl (hasset.symm.trans h)
  | error text => exact .inl (herror.symm.trans h)

/-- Everything that is new has a place it comes from. -/
theorem Traced.moved (h : Traced decode events c) (halike : Alike c c')
    (hrunning : c'.loader.running = c.loader.running)
    (houtstanding : c'.loader.outstanding = if c'.activeGeneration.isSome then 1 else 0)
    (hrequests : ∀ r ∈ c'.loader.requests ++ c'.loader.decoding.toList,
      r ∈ c.loader.requests ++ c.loader.decoding.toList ∨ Fresh decode events c r none)
    (hresults : ∀ completed ∈ c'.loader.results, completed ∈ c.loader.results ∨
      ∃ r x, completed.generation = r.generation ∧ completed.result = loadResult decode r x ∧
        Fresh decode events c r (some x))
    (hheld : ∀ result, Holds c' result → Holds c result ∨
      ∃ r x, loadResult decode r x = result ∧ Origin decode events c r (some x)) :
    Traced decode events c' := by
  refine ⟨hrunning.trans h.running, ?_, houtstanding, ?_, ?_, ?_⟩
  · rw [halike.path, halike.animationPaths, halike.shaderPath]
    exact h.whole
  · intro r hr
    obtain hold | hnew := hrequests r hr
    · exact (h.requests r hold).alike halike
    · exact hnew.alike halike
  · intro completed hmem
    obtain hold | ⟨r, x, hgeneration, hresult, hfresh⟩ := hresults completed hmem
    · obtain ⟨r, x, hgeneration, hresult, hfresh⟩ := h.results completed hold
      exact ⟨r, x, hgeneration, hresult, hfresh.alike halike⟩
    · exact ⟨r, x, hgeneration, hresult, hfresh.alike halike⟩
  · intro result hresult
    obtain hold | ⟨r, x, hresult, horigin⟩ := hheld result hresult
    · obtain ⟨r, x, hresult, horigin⟩ := h.held result hold
      exact ⟨r, x, hresult, horigin.alike halike⟩
    · exact ⟨r, x, hresult, horigin.alike halike⟩

/-- What is on its way in a new generation is of an older one. -/
theorem Traced.renewed (h : Traced decode events c) {events' : List (AvatarEvent ι)}
    (hloader : c'.loader = c.loader) (hactive : c'.activeGeneration = c.activeGeneration)
    (hwhole : c'.requestedPath.isSome →
      c'.requestedAnimationPaths.isSome ∧ c'.requestedShaderPath.isSome)
    (hasset : c'.asset = none) (herror : c'.error = none) (hnext : c.generation < c'.generation) :
    Traced decode events' c' := by
  have hstale : ∀ r found found', Fresh decode events c r found →
      Fresh decode events' c' r found' := by
    intro r found found' hfresh
    have hlt := UInt64.lt_of_le_of_lt hfresh.generation hnext
    exact ⟨UInt64.le_of_lt hlt, fun hsame => absurd hsame (UInt64.ne_of_lt hlt)⟩
  refine ⟨hloader ▸ h.running, hwhole, ?_, ?_, ?_, ?_⟩
  · rw [hloader, hactive]
    exact h.outstanding
  · rw [hloader]
    exact fun r hr => hstale r none none (h.requests r hr)
  · rw [hloader]
    intro completed hmem
    obtain ⟨r, x, hgeneration, hresult, hfresh⟩ := h.results completed hmem
    exact ⟨r, x, hgeneration, hresult, hstale r _ _ hfresh⟩
  · rintro (text | model) hheld
    · cases herror.symm.trans hheld
    · cases hasset.symm.trans hheld

/-- Either nothing new is asked for, or a new generation begins without a result. -/
theorem request_cases (c : AvatarModelCache μ) (profile : AvatarReactionProfile) :
    c.request profile = c ∨
      (c.request profile).generation = c.generation + 1 ∧ (c.request profile).asset = none ∧
      (c.request profile).error = none ∧ (c.request profile).loader = c.loader ∧
      (c.request profile).activeGeneration = c.activeGeneration ∧
      (c.request profile).requestedAnimationPaths.isSome ∧
      (c.request profile).requestedShaderPath.isSome := by
  unfold AvatarModelCache.request
  dsimp only
  split_ifs
  · exact .inr ⟨rfl, rfl, rfl, rfl, rfl, rfl, rfl⟩
  · exact .inl rfl

theorem pollLoader_generation (c : AvatarModelCache μ) :
    c.pollLoader.generation = c.generation := by
  unfold AvatarModelCache.pollLoader
  split
  · split <;> rfl
  · dsimp only
    split
    · rfl
    · split <;> rfl

theorem startLoad_generation (c : AvatarModelCache μ) :
    c.startLoadIfNeeded.generation = c.generation := by
  unfold AvatarModelCache.startLoadIfNeeded
  split
  · rfl
  · split <;> rfl

/-- If a result has come in, nothing else is outstanding. -/
theorem Traced.only_result (h : Traced decode events c) {completed : AvatarModelLoadResult μ}
    {results : List (AvatarModelLoadResult μ)} (hresults : c.loader.results = completed :: results) :
    c.loader.requests = [] ∧ c.loader.decoding = none ∧ results = [] := by
  have hcount : c.loader.outstanding ≤ 1 := by
    rw [h.outstanding]
    split <;> omega
  simp only [AvatarModelLoader.outstanding, hresults, length_cons] at hcount
  refine ⟨length_eq_zero_iff.mp (by omega), ?_, length_eq_zero_iff.mp (by omega)⟩
  exact Option.toList_eq_nil_iff.mp (length_eq_zero_iff.mp (by omega))

/-- A result that has come in is dropped, or is the one of the cache. -/
theorem traced_pollLoader (h : Traced decode events c) : Traced decode events c.pollLoader := by
  unfold AvatarModelCache.pollLoader
  cases hresults : c.loader.results with
  | nil =>
    rw [h.running]
    exact h
  | cons completed results =>
    obtain ⟨r, x, hgeneration, hresult, hfresh⟩ :=
      h.results completed (hresults ▸ mem_cons_self)
    obtain ⟨hrequests, hdecoding, rfl⟩ := h.only_result hresults
    have htaken : Traced decode events
        { c with activeGeneration := none, loader := { c.loader with results := [] } } := by
      refine h.moved ⟨rfl, rfl, rfl, rfl⟩ rfl ?_ (fun r => .inl) nofun (holds_of_kept rfl rfl)
      simp [AvatarModelLoader.outstanding, hrequests, hdecoding]
    dsimp only
    split_ifs with hother
    · exact htaken
    · have halike : Alike c
          { c with activeGeneration := none, loader := { c.loader with results := [] } } :=
        ⟨rfl, rfl, rfl, rfl⟩
      have horigin := (hfresh.origin (hgeneration.symm.trans (not_not.mp hother))).alike halike
      rw [hresult]
      cases hdecoded : loadResult decode r x with
      | ok model =>
        refine htaken.moved ⟨rfl, rfl, rfl, rfl⟩ rfl htaken.outstanding (fun r => .inl) nofun ?_
        rintro (text | _) hheld
        · exact .inl hheld
        · cases hheld
          exact .inr ⟨r, x, hdecoded, horigin⟩
      | error text =>
        refine htaken.moved ⟨rfl, rfl, rfl, rfl⟩ rfl htaken.outstanding (fun r => .inl) nofun ?_
        rintro (_ | model) hheld
        · cases hheld
          exact .inr ⟨r, x, hdecoded, horigin⟩
        · exact .inl hheld

theorem nextRequest_some (h : c.nextRequest = some r) : c.activeGeneration = none ∧
    r.generation = c.generation ∧ c.requestedPath = some r.path ∧
    r.animationPaths = c.requestedAnimationPaths.getD [] ∧
    r.shaderPath = c.requestedShaderPath.getD [] := by
  unfold AvatarModelCache.nextRequest at h
  split_ifs at h with hnone
  obtain rfl := Option.some.inj h
  push Not at hnone
  obtain ⟨hpath, _, _, hactive⟩ := hnone
  refine ⟨by simpa using hactive, rfl, ?_, rfl, rfl⟩
  cases hrequested : c.requestedPath with
  | none => simp [AvatarModelCache.path, hrequested] at hpath
  | some path => simp [AvatarModelCache.path, hrequested]

/-- A request is sent only if none is outstanding. -/
theorem traced_startLoad (hrun : run decode initial events = some s)
    (h : Traced decode events s.cache) :
    Traced decode (events ++ [.startLoad]) s.cache.startLoadIfNeeded := by
  have hlater : Traced decode (events ++ [.startLoad]) s.cache := h.later nofun
  unfold AvatarModelCache.startLoadIfNeeded
  cases hnext : s.cache.nextRequest with
  | none => exact hlater
  | some r =>
    obtain ⟨hactive, hgeneration, hpath, hanimations, hshader⟩ := nextRequest_some hnext
    have hcount := h.outstanding
    rw [hactive] at hcount
    obtain ⟨hanimated, hshaded⟩ := h.whole (by rw [hpath]; rfl)
    have hrequested : Requested s.cache r := by
      refine ⟨hpath, ?_, ?_⟩
      · rw [hanimations, ← Option.some_get hanimated]
        rfl
      · rw [hshader, ← Option.some_get hshaded]
        rfl
    have hmade : Made (μ := μ) decode (events ++ [.startLoad]) [] r :=
      ⟨⟨events, s, rfl, hrun, hnext⟩, not_mem_nil⟩
    dsimp only
    rw [if_pos h.running]
    refine hlater.moved ⟨rfl, rfl, rfl, rfl⟩ rfl ?_ ?_ (fun _ => .inl) (holds_of_kept rfl rfl)
    · simp only [AvatarModelLoader.outstanding, length_append, length_singleton] at hcount ⊢
      change _ = 1
      change _ = 0 at hcount
      omega
    · intro q hq
      rw [append_assoc, mem_append, mem_append, mem_singleton] at hq
      rcases hq with hq | rfl | hq
      · exact .inl (mem_append_left _ hq)
      · exact .inr ⟨UInt64.le_of_eq hgeneration, fun _ => ⟨hrequested, [], hmade, nofun⟩⟩
      · exact .inl (mem_append_right _ hq)

/-- Between two calls of `sync` a model is on its way if one is missing. -/
def Settled (s : AvatarState μ) : Prop :=
  s.syncing = false → s.cache.loading → s.cache.activeGeneration.isSome

theorem settled_startLoad (hrunning : c.loader.running = true)
    (hloading : c.startLoadIfNeeded.loading) :
    c.startLoadIfNeeded.activeGeneration.isSome := by
  unfold AvatarModelCache.startLoadIfNeeded at hloading ⊢
  cases hnext : c.nextRequest with
  | some r =>
    dsimp only
    rw [if_pos hrunning]
    rfl
  | none =>
    simp only [hnext] at hloading
    -- nothing was sent although a model is missing: one is on its way
    by_contra hnone
    unfold AvatarModelCache.nextRequest at hnext
    rw [if_neg] at hnext
    · cases hnext
    · simp only [AvatarModelCache.loading, Bool.and_eq_true, Bool.not_eq_true'] at hloading
      obtain ⟨⟨hpath, hasset⟩, herror⟩ := hloading
      simp_all

theorem succ_ne_self (g : UInt64) : g + 1 ≠ g := by
  intro h
  have hnat := congrArg UInt64.toNat h
  have hlt := g.toNat_lt
  rw [UInt64.toNat_add, UInt64.toNat_one] at hnat
  omega

theorem traced_request (h : Traced decode events c) (profile : AvatarReactionProfile)
    (hgrows : c.generation ≤ (c.request profile).generation) :
    Traced decode (events ++ [.sync profile]) (c.request profile) := by
  obtain hsame | ⟨hnext, hasset, herror, hloader, hactive, hanimations, hshader⟩ :=
    request_cases c profile
  · rw [hsame]
    exact h.later nofun
  · refine h.renewed hloader hactive (fun _ => ⟨hanimations, hshader⟩) hasset herror ?_
    refine UInt64.lt_of_le_of_ne hgrows fun heq => ?_
    rw [hnext] at heq
    exact succ_ne_self _ heq.symm

/-- What is invalidated is asked for no more. -/
theorem traced_invalidate (h : Traced decode events c)
    (hgrows : c.generation ≤ c.invalidate.generation) :
    Traced decode (events ++ [.invalidate]) c.invalidate := by
  have hlt := UInt64.lt_of_le_of_ne hgrows (succ_ne_self _).symm
  have hunasked : c.invalidate.requestedPath = none := rfl
  refine h.renewed rfl rfl (fun hsome => ?_) rfl rfl hlt
  simp [hunasked] at hsome

theorem traced_received (h : Traced decode events c) {request : AvatarModelLoadRequest}
    {requests : List AvatarModelLoadRequest} (hrequests : c.loader.requests = request :: requests)
    (hdecoding : c.loader.decoding = none) : Traced decode events { c with
      loader := { c.loader with requests, decoding := some request } } := by
  refine h.moved ⟨rfl, rfl, rfl, rfl⟩ rfl ?_ ?_ (fun _ => .inl) (holds_of_kept rfl rfl)
  · have hcount := h.outstanding
    simp only [AvatarModelLoader.outstanding, hrequests, hdecoding, length_cons,
      Option.toList_none, Option.toList_some, length_nil] at hcount ⊢
    omega
  · intro r hr
    simp only [hrequests, hdecoding, Option.toList_some, Option.toList_none, mem_append,
      mem_cons] at hr ⊢
    tauto

/-- The result of a request comes from where the request comes from. -/
theorem traced_decoded (h : Traced decode events c) {request : AvatarModelLoadRequest}
    (hdecoding : c.loader.decoding = some request) (x : ι) :
    Traced decode (events ++ [.decoded x]) { c with
      loader := { c.loader with
        decoding := none
        results := c.loader.results ++ [⟨request.generation, loadResult decode request x⟩] } } := by
  have hkeeps : AvatarEvent.decoded x ≠ .invalidate := nofun
  have hlater := h.later hkeeps
  have hfresh := h.requests request (by rw [hdecoding]; exact mem_append_right _ (by simp))
  refine hlater.moved ⟨rfl, rfl, rfl, rfl⟩ rfl ?_ ?_ ?_ (holds_of_kept rfl rfl)
  · have hcount := h.outstanding
    simp only [AvatarModelLoader.outstanding, hdecoding, length_append, length_singleton,
      Option.toList_none, Option.toList_some, length_nil] at hcount ⊢
    omega
  · intro r hr
    rcases mem_append.mp hr with hr | hr
    · exact .inl (mem_append_left _ hr)
    · cases hr
  · intro completed hmem
    rcases mem_append.mp hmem with hold | hnew
    · exact .inl hold
    · rw [mem_singleton.mp hnew]
      refine .inr ⟨request, x, rfl, rfl, hfresh.generation, fun hsame => ?_⟩
      obtain ⟨hrequested, after, hmade, _⟩ := hfresh.origin hsame
      refine ⟨hrequested, after ++ [.decoded x], hmade.later hkeeps, ?_⟩
      rintro _ ⟨⟩
      exact mem_append_right _ (mem_singleton_self _)

/-- As long as the generation does not wrap, everything stays traced. -/
theorem traced_step (hrun : run decode initial events = some s)
    (h : Traced decode events s.cache) (hstep : step decode s e = some t)
    (hgrows : s.cache.generation ≤ t.cache.generation) :
    Traced decode (events ++ [e]) t.cache := by
  unfold step at hstep
  split at hstep <;> split at hstep <;> cases hstep
  · rw [pollLoader_generation] at hgrows
    exact traced_pollLoader (traced_request h _ hgrows)
  · exact traced_startLoad hrun h
  · exact traced_invalidate h hgrows
  · exact (traced_received h ‹_› ‹_›).later nofun
  · exact traced_decoded h ‹_› _

theorem settled_step (hrunning : s.cache.loader.running = true) (h : Settled s)
    (hstep : step decode s e = some t) : Settled t := by
  unfold step at hstep
  split at hstep <;> split at hstep <;> cases hstep
  · exact nofun
  · exact fun _ => settled_startLoad hrunning
  · exact fun _ => nofun
  · exact h
  · exact h

theorem generation_step (hstep : step decode s e = some t) :
    t.cache.generation = s.cache.generation ∨ t.cache.generation = s.cache.generation + 1 := by
  unfold step at hstep
  split at hstep <;> split at hstep <;> cases hstep
  · dsimp only
    rw [pollLoader_generation]
    obtain hsame | ⟨hnext, _⟩ := request_cases s.cache _
    · exact .inl (by rw [hsame])
    · exact .inr hnext
  · exact .inl (startLoad_generation s.cache)
  · exact .inr rfl
  · exact .inl rfl
  · exact .inl rfl

/-- A generation that is counted has not wrapped. -/
theorem generation_counted (hstep : step decode s e = some t)
    (hfits : s.cache.generation.toNat +
      (if t.cache.generation = s.cache.generation then 0 else 1) < 2 ^ 64) :
    t.cache.generation.toNat =
      s.cache.generation.toNat + if t.cache.generation = s.cache.generation then 0 else 1 := by
  obtain hsame | hnext := generation_step hstep
  · rw [hsame, if_pos rfl, Nat.add_zero]
  · rw [hnext, if_neg (succ_ne_self _)] at hfits ⊢
    rw [UInt64.toNat_add]
    exact Nat.mod_eq_of_lt hfits

theorem traced_run {past : List (AvatarEvent ι)} (hpast : run decode initial past = some s)
    (h : Traced decode past s.cache) (hsettled : Settled s)
    (hfits : s.cache.generation.toNat + generations decode s events < 2 ^ 64)
    (hrun : run decode s events = some t) :
    Traced decode (past ++ events) t.cache ∧ Settled t := by
  induction events generalizing s past with
  | nil =>
    cases hrun
    rw [append_nil]
    exact ⟨h, hsettled⟩
  | cons e events ih =>
    obtain ⟨u, hu, hrest⟩ := Runs.run_cons.mp hrun
    simp only [generations, hu] at hfits
    have hcounted := generation_counted hu (by omega)
    have hgrows : s.cache.generation ≤ u.cache.generation := by
      rw [UInt64.le_iff_toNat_le]
      omega
    have hpast' : run decode initial (past ++ [e]) = some u :=
      Runs.run_append.mpr ⟨s, hpast, Runs.run_cons.mpr ⟨u, hu, rfl⟩⟩
    have hlast := ih hpast' (traced_step hpast h hu hgrows) (settled_step h.running hsettled hu)
      (by omega) hrest
    rwa [append_assoc] at hlast

theorem traced_initial : Traced decode [] (initial (μ := μ)).cache :=
  ⟨rfl, nofun, rfl, nofun, nofun, by rintro (_ | _) ⟨⟩⟩

/-- As long as the generations do not wrap, one request is outstanding at most, an asset or an error
was decoded for just the model that is asked for, on a request made since the last invalidation, and
a model that is missing after a `sync` is on its way. -/
theorem avatar_cache_current {s : AvatarState μ} (hrun : run decode initial events = some s)
    (hfits : generations decode initial events < 2 ^ 64) :
    s.cache.loader.outstanding ≤ 1 ∧
    (∀ model, s.cache.asset = some model → ∃ r x, loadResult decode r x = .ok model ∧
      Origin decode events s.cache r (some x)) ∧
    (∀ text, s.cache.error = some text → ∃ r x, loadResult decode r x = .error text ∧
      Origin decode events s.cache r (some x)) ∧
    (s.syncing = false → s.cache.loading → s.cache.loader.outstanding = 1) := by
  have hstart : (initial (μ := μ)).cache.generation.toNat + generations decode initial events <
      2 ^ 64 := by
    have hzero : (initial (μ := μ)).cache.generation.toNat = 0 := rfl
    omega
  obtain ⟨htraced, hsettled⟩ := traced_run rfl traced_initial (fun _ => nofun) hstart hrun
  rw [nil_append] at htraced
  have hcount := htraced.outstanding
  refine ⟨?_, fun model => htraced.held (.ok model), fun text => htraced.held (.error text),
    fun hdone hloading => ?_⟩
  · rw [hcount]
    split <;> omega
  · rw [hcount, if_pos (hsettled hdone hloading)]

/-- A decoder for which every path is a model. -/
def pathDecoder : Decoder Unit Str := fun r _ => some (.ok r.path)

def loadOnce : List (AvatarEvent Unit) :=
  [.sync { modelPath := ['a'] }, .startLoad, .received, .decoded (), .sync { modelPath := ['a'] }]

theorem avatar_cache_current_sample : ∃ s, run pathDecoder initial loadOnce = some s ∧
    s.cache.asset = some ['a'] ∧ generations pathDecoder initial loadOnce = 1 ∧
    ∃ r x, loadResult pathDecoder r x = .ok ['a'] ∧
      Origin pathDecoder loadOnce s.cache r (some x) := by
  have hgenerations : generations pathDecoder initial loadOnce = 1 := by decide +kernel
  obtain ⟨s, hrun, hasset⟩ : ∃ s, run pathDecoder initial loadOnce = some s ∧
      s.cache.asset = some ['a'] := ⟨_, rfl, rfl⟩
  refine ⟨s, hrun, hasset, hgenerations, ?_⟩
  exact (avatar_cache_current hrun (by rw [hgenerations]; norm_num)).2.1 _ hasset

end AvatarState

end SkidMonitor.Client

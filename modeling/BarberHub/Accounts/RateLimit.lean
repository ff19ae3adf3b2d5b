import Mathlib.Data.Rat.Floor
import BarberHub.Core.Errors
import BarberHub.Support.SlidingWindow

/-!
# The login limit

The limiter of `app/core/rate_limit.py`, which stands before the handlers of
`register` and `login`: who a request is counted under, what the limiter keeps,
and when it refuses.  Readings of `time.monotonic` are rational numbers of
seconds.
-/

namespace BarberHub

/-! ## The limiter -/

/-- `RateLimitedError`, with the `retry_after_seconds` of its details. -/
structure RateLimitedError where
  message : String
  retryAfterSeconds : ℤ
  deriving DecidableEq, Repr

/-- The class's `code`. -/
def RateLimitedError.code (_ : RateLimitedError) : String := "RATE_LIMITED"

/-- The limit and the window in seconds of a `SlidingWindowLimiter`. -/
structure SlidingWindowLimiter where
  limit : ℕ
  window : ℕ
  limit_pos : 1 ≤ limit

/-- `auth_limiter`. -/
def authLimiter : SlidingWindowLimiter := ⟨10, 60, by decide⟩

/-- `_hits`: the times kept for each key, the oldest first. -/
abbrev Hits := String → List ℚ

/-- `int(x)`: towards zero. -/
def truncated (x : ℚ) : ℤ := x.num.tdiv x.den

/-- The loop of `check` that forgets what is older than the window. -/
def SlidingWindowLimiter.forget (limiter : SlidingWindowLimiter) (now : ℚ) :
    List ℚ → List ℚ
  | [] => []
  | hit :: hits =>
      if now - hit > limiter.window then limiter.forget now hits
      else hit :: hits

/-- `check`: what it leaves in `_hits`, and its refusal. -/
def SlidingWindowLimiter.check (limiter : SlidingWindowLimiter) (now : ℚ)
    (key : String) (hits : Hits) : Hits × Except RateLimitedError Unit :=
  match limiter.forget now (hits key) with
  | [] => (Function.update hits key [now], pure ())
  | first :: kept =>
      if kept.length + 1 ≥ limiter.limit then
        (Function.update hits key (first :: kept),
          throw {
            message := "Too many attempts; please wait before trying again"
            retryAfterSeconds :=
              truncated (limiter.window - (now - first)) + 1 })
      else (Function.update hits key (first :: kept ++ [now]), pure ())

/-! ## Who a request is counted under -/

/-- A request: its headers, with their names in lower case, and the address of
its socket where there is one. -/
structure HttpRequest where
  headers : List (String × String)
  client : Option String
  deriving DecidableEq, Repr

/-- `request.headers.get(name)`. -/
def HttpRequest.header (request : HttpRequest) (name : String) :
    Option String :=
  (request.headers.find? fun header => header.1 = name).map Prod.snd

/-- `str.isspace` of one character. -/
def isSpace (c : Char) : Bool :=
  9 ≤ c.toNat && c.toNat ≤ 13 || 28 ≤ c.toNat && c.toNat ≤ 32 ||
    8192 ≤ c.toNat && c.toNat ≤ 8202 ||
    [133, 160, 5760, 8232, 8233, 8239, 8287, 12288].contains c.toNat

/-- `s.split(",")[0].strip()`. -/
def firstForwarded (s : String) : String :=
  let first := (s.toList.takeWhile (· ≠ ',')).dropWhile isSpace
  String.ofList (first.reverse.dropWhile isSpace).reverse

/-- `client_key`. -/
def clientKey (request : HttpRequest) : String :=
  match request.header "x-forwarded-for" with
  | some forwarded =>
      if forwarded ≠ "" then firstForwarded forwarded
      else request.client.getD "unknown"
  | none => request.client.getD "unknown"

/-- `limit_auth`. -/
def limitAuth (rateLimitEnabled : Bool) (limiter : SlidingWindowLimiter)
    (now : ℚ) (request : HttpRequest) (hits : Hits) :
    Hits × Except RateLimitedError Unit :=
  if rateLimitEnabled then limiter.check now (clientKey request) hits
  else (hits, pure ())

example :
    clientKey ⟨[("x-forwarded-for", " 203.0.113.9 , 10.0.0.1")], none⟩ =
      "203.0.113.9" := by
  decide +kernel

/-! ## What is kept -/

variable {limiter : SlidingWindowLimiter}

theorem forget_eq_prune (now : ℚ) (hits : List ℚ) :
    limiter.forget now hits =
      SlidingWindow.prune (limiter.window : ℚ) now hits := by
  induction hits with
  | nil => rfl
  | cons hit hits ih =>
      rw [SlidingWindowLimiter.forget]
      by_cases hold : now - hit > limiter.window
      · rw [if_pos hold, SlidingWindow.prune_cons_of_lt hits hold, ih]
      · rw [if_neg hold, SlidingWindow.prune_cons_of_le hits (not_lt.mp hold)]

/-- What a check does, by the number of times it keeps for the key. -/
theorem check_eq (limiter : SlidingWindowLimiter) (now : ℚ) (key : String)
    (hits : Hits) :
    (limiter.check now key hits).1 =
        Function.update hits key
          (let kept := SlidingWindow.prune (limiter.window : ℚ) now (hits key)
          if kept.length < limiter.limit then kept ++ [now] else kept) ∧
      ((limiter.check now key hits).2 = pure () ↔
        (SlidingWindow.prune (limiter.window : ℚ) now (hits key)).length <
          limiter.limit) := by
  rw [SlidingWindowLimiter.check, forget_eq_prune]
  cases SlidingWindow.prune (limiter.window : ℚ) now (hits key) with
  | nil =>
      have hpos := limiter.limit_pos
      constructor
      · rw [if_pos (by rw [List.length_nil]; omega)]
        rfl
      · constructor
        · intro _
          rw [List.length_nil]
          omega
        · intro _
          rfl
  | cons first kept =>
      dsimp only
      rw [List.length_cons]
      by_cases hfull : kept.length + 1 ≥ limiter.limit
      · rw [if_pos hfull, if_neg (by omega)]
        constructor
        · rfl
        · constructor
          · intro h
            cases h
          · intro h
            omega
      · rw [if_neg hfull, if_pos (by omega)]
        constructor
        · rfl
        · constructor
          · intro _
            omega
          · intro _
            rfl

/-! ## Runs -/

/-- What the limiter keeps, and the requests that have reached a handler. -/
structure AuthDesk where
  hits : Hits
  reached : List (ℚ × HttpRequest)

/-- A process that has just started. -/
def AuthDesk.fresh : AuthDesk := ⟨fun _ => [], []⟩

/-- One request to `register` or `login`: it reaches the handler unless
`limit_auth` refuses it. -/
def serve (limiter : SlidingWindowLimiter) (s : AuthDesk)
    (e : ℚ × HttpRequest) : AuthDesk :=
  match limitAuth true limiter e.1 e.2 s.hits with
  | (hits, .ok _) => ⟨hits, s.reached ++ [e]⟩
  | (hits, .error _) => ⟨hits, s.reached⟩

/-- The requests with these headers, from one socket address. -/
def fromSocket (client : Option String)
    (requests : List (ℚ × List (String × String))) : List (ℚ × HttpRequest) :=
  requests.map fun request => (request.1, ⟨request.2, client⟩)

/-- At most `limit` of the requests lie in any stretch of one window. -/
def SlidingWindowLimiter.Holds (limiter : SlidingWindowLimiter)
    (reached : List (ℚ × HttpRequest)) : Prop :=
  ∀ a : ℚ, (reached.filter fun e =>
    a ≤ e.1 ∧ e.1 ≤ a + limiter.window).length ≤ limiter.limit

/-- Fewer than `limit` requests have reached a handler in the last window, or
all of these are counted under the key of the next request. -/
def UnderOneKey (limiter : SlidingWindowLimiter) (s : AuthDesk)
    (e : ℚ × HttpRequest) : Prop :=
  (s.reached.filter fun earlier =>
      e.1 - earlier.1 ≤ limiter.window).length < limiter.limit ∨
    ∀ earlier ∈ s.reached, e.1 - earlier.1 ≤ limiter.window →
      clientKey earlier.2 = clientKey e.2

instance (s : AuthDesk) (e : ℚ × HttpRequest) :
    Decidable (UnderOneKey limiter s e) :=
  inferInstanceAs (Decidable (_ ∨ ∀ earlier ∈ s.reached, _ → _))

/-- A request under its client key. -/
def keyed (e : ℚ × HttpRequest) : ℚ × String := (e.1, clientKey e.2)

/-- The limiter among sliding-window limiters over client keys. -/
def AuthDesk.windowState (s : AuthDesk) : SlidingWindow.State String ℚ :=
  ⟨s.hits, s.reached.map keyed⟩

/-- A request is one attempt under its client key. -/
theorem windowState_serve (s : AuthDesk) (e : ℚ × HttpRequest) :
    (serve limiter s e).windowState =
      SlidingWindow.attempt limiter.limit (limiter.window : ℚ) s.windowState
        (keyed e) := by
  obtain ⟨hhits, hpass⟩ :=
    check_eq limiter e.1 (clientKey e.2) s.hits
  rw [serve, limitAuth, if_pos rfl, SlidingWindow.attempt]
  generalize hchecked : limiter.check e.1 (clientKey e.2) s.hits = checked
  rw [hchecked] at hhits hpass
  obtain ⟨hits, outcome⟩ := checked
  dsimp only at hhits hpass
  subst hhits
  cases outcome with
  | ok _ =>
      have hfew := hpass.mp rfl
      simp [AuthDesk.windowState, keyed, hfew]
  | error refusal =>
      have hmany : ¬ (SlidingWindow.prune (limiter.window : ℚ) e.1
          (s.hits (clientKey e.2))).length < limiter.limit := by
        intro h
        cases hpass.mpr h
      simp [AuthDesk.windowState, keyed, hmany]

theorem windowState_foldl (s : AuthDesk) (requests : List (ℚ × HttpRequest)) :
    (requests.foldl (serve limiter) s).windowState =
      (requests.map keyed).foldl
        (SlidingWindow.attempt limiter.limit (limiter.window : ℚ))
        s.windowState := by
  induction requests generalizing s with
  | nil => rfl
  | cons e requests ih =>
      rw [List.foldl_cons, ih, windowState_serve, List.map_cons,
        List.foldl_cons]

/-- The limit on the requests is the limit on their attempts. -/
theorem holds_iff_limited (s : AuthDesk) :
    limiter.Holds s.reached ↔
      SlidingWindow.Limited limiter.limit (limiter.window : ℚ)
        s.windowState.admitted := by
  apply forall_congr'
  intro a
  rw [SlidingWindow.within, AuthDesk.windowState, List.filter_map,
    List.length_map]
  rfl

theorem underOneKey_iff_counted (s : AuthDesk) (e : ℚ × HttpRequest) :
    UnderOneKey limiter s e ↔
      SlidingWindow.Counted limiter.limit (limiter.window : ℚ) s.windowState
        (keyed e) := by
  rw [UnderOneKey, SlidingWindow.Counted, SlidingWindow.recent,
    AuthDesk.windowState, List.filter_map, List.length_map,
    List.forall_mem_map]
  apply or_congr Iff.rfl
  simp only [List.mem_filter, Function.comp_apply, decide_eq_true_eq, and_imp]
  rfl

theorem along_underOneKey_iff (s : AuthDesk)
    (requests : List (ℚ × HttpRequest)) :
    Runs.Along (serve limiter) (UnderOneKey limiter) s requests ↔
      Runs.Along (SlidingWindow.attempt limiter.limit (limiter.window : ℚ))
        (SlidingWindow.Counted limiter.limit (limiter.window : ℚ))
        s.windowState (requests.map keyed) := by
  induction requests generalizing s with
  | nil => exact Iff.rfl
  | cons e requests ih =>
      rw [List.map_cons, Runs.along_cons_iff, Runs.along_cons_iff,
        ← windowState_serve, ih, underOneKey_iff_counted]

/-- For every sequence of requests from one socket address, at nondecreasing
times: at most `limit` of them reach a handler in any stretch of one window,
exactly when each one finds fewer than that in the last window or is counted
under the key of all of those. -/
theorem limit_holds_iff_underOneKey
    (limiter : SlidingWindowLimiter) (client : Option String)
    (requests : List (ℚ × List (String × String)))
    (htimes : requests.Pairwise fun r r' => r.1 ≤ r'.1) :
    limiter.Holds
        ((fromSocket client requests).foldl (serve limiter) .fresh).reached ↔
      Runs.Along (serve limiter) (UnderOneKey limiter) .fresh
        (fromSocket client requests) := by
  rw [holds_iff_limited, windowState_foldl, along_underOneKey_iff]
  apply SlidingWindow.limited_iff (Nat.cast_nonneg limiter.window)
  rw [fromSocket, List.map_map, List.pairwise_map]
  exact htimes

/-- Eleven requests in eleven seconds from one address, each with its own
`X-Forwarded-For`. -/
def manyNames : List (ℚ × List (String × String)) :=
  (List.range 11).map fun (n : ℕ) =>
    ((n : ℚ), [("x-forwarded-for", String.singleton (Char.ofNat (97 + n)))])

theorem not_limit_holds_manyNames :
    ¬ ∀ (limiter : SlidingWindowLimiter) (client : Option String)
      (requests : List (ℚ × List (String × String))),
      (requests.Pairwise fun r r' => r.1 ≤ r'.1) →
      limiter.Holds
        ((fromSocket client requests).foldl (serve limiter) .fresh).reached := by
  intro h
  have hall := h authLimiter (some "203.0.113.9") manyNames (by decide +kernel) 0
  revert hall
  decide +kernel

/-- Three requests in a minute without the header. -/
def plainRequests : List (ℚ × List (String × String)) :=
  [(0, []), (20, []), (60, [])]

/-- Of three requests in a minute, a limit of two lets the first two through. -/
theorem limit_holds_iff_underOneKey_plain :
    (⟨2, 60, by decide⟩ : SlidingWindowLimiter).Holds
      ((fromSocket (some "203.0.113.9") plainRequests).foldl
        (serve ⟨2, 60, by decide⟩) .fresh).reached :=
  (limit_holds_iff_underOneKey ⟨2, 60, by decide⟩ (some "203.0.113.9")
    plainRequests (by decide +kernel)).mpr (by decide +kernel)

end BarberHub

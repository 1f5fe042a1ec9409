import ManagedAgents.Database

/-!
# Runtime exceptions

What the failure handler of a turn reads from an exception: whether it counts
as transient, its status code, and how long a retry has to wait.  Attributes
which an exception does not have read as `null`.  A conversion that overflows
is not caught by these functions, so it leaves them as an error.
-/

namespace ManagedAgents

def MAX_TRANSIENT_RETRY_ATTEMPTS : ℕ := 3
def DEFAULT_RETRY_AFTER_SECONDS : ℕ := 5
def MAX_RETRY_AFTER_SECONDS : ℤ := 300

structure PyException where
  className : String
  message : String
  statusCode : Json := .null
  status : Json := .null
  retryAfter : Json := .null
  /-- `exc.response.headers.get("retry-after")`. -/
  retryAfterHeader : Json := .null
  /-- `isinstance(exc, (TimeoutError, ConnectionError))`. -/
  timeoutOrConnection : Bool := false
deriving DecidableEq

def runtimeError (message : String) : PyException where
  className := "RuntimeError"
  message := message

/-- The exception of a flush that met a taken key. -/
def integrityError : PyException where
  className := "IntegrityError"
  message := "UNIQUE constraint failed"

def typeError : PyException where
  className := "TypeError"
  message := "argument is not a string"

def keyError (key : String) : PyException where
  className := "KeyError"
  message := "'" ++ key ++ "'"

def PyError.toException : PyError → PyException
  | .typeError => { className := "TypeError", message := "" }
  | .valueError => { className := "ValueError", message := "" }
  | .overflowError => { className := "OverflowError", message := "" }

/-! ## Status codes -/

/-- One round of the loop in `_status_code`: a failed conversion passes on to
the next attribute. -/
def statusCodeOf (py : Python) (value : Json) : Except PyError (Option ℤ) :=
  match py.int value with
  | .ok code => .ok (some code)
  | .error .overflowError => .error .overflowError
  | .error _ => .ok none

def statusCode (py : Python) (exc : PyException) : Except PyError (Option ℤ) :=
  match statusCodeOf py exc.statusCode with
  | .error error => .error error
  | .ok (some code) => .ok (some code)
  | .ok none => statusCodeOf py exc.status

def lowerChar (c : Char) : Char :=
  if 'A' ≤ c ∧ c ≤ 'Z' then Char.ofNat (c.toNat + 32) else c

/-- `text.lower()` as far as a comparison with ASCII words can see it. -/
def lower (text : String) : List Char :=
  text.toList.map lowerChar

/-- `text.lower()`. -/
def Python.lower (py : Python) (text : String) : String :=
  if text.toList.all fun c => c.toNat < 128 then
    String.ofList (text.toList.map lowerChar)
  else py.lowerUnicode text

def TRANSIENT_MARKERS : List String :=
  ["ratelimit", "rate_limit", "timeout", "connection", "temporar",
   "serviceunavailable", "internalserver"]

def isTransientStatusCode (code : ℤ) : Bool :=
  code = 408 || code = 409 || code = 425 || code = 429 || 500 ≤ code

/-- `part in text`. -/
def occursIn (part text : List Char) : Bool :=
  text.tails.any fun suffix => part.isPrefixOf suffix

theorem occursIn_iff
    (part text : List Char) :
    occursIn part text = true ↔ part <:+: text := by
  simp only [occursIn, List.any_eq_true, List.mem_tails, List.isPrefixOf_iff_prefix,
    List.infix_iff_prefix_suffix]
  exact exists_congr fun suffix => and_comm

def hasTransientName (exc : PyException) : Bool :=
  TRANSIENT_MARKERS.any fun marker => occursIn marker.toList (lower exc.className)

def isTransientRuntimeError (py : Python) (exc : PyException) :
    Except PyError Bool :=
  match statusCode py exc with
  | .error error => .error error
  | .ok code =>
      if code.any isTransientStatusCode then .ok true
      else if exc.timeoutOrConnection then .ok true
      else .ok (hasTransientName exc)

/-- The exception counts as transient. -/
def isTransient (py : Python) (exc : PyException) : Bool :=
  match isTransientRuntimeError py exc with
  | .ok transient => transient
  | .error _ => false

/-! ## Retry delays -/

def positiveInt (py : Python) (value : Json) : Except PyError (Option ℤ) :=
  match (py.float value).bind PyFloat.toInt with
  | .ok parsed => .ok (if 0 < parsed then some parsed else none)
  | .error .overflowError => .error .overflowError
  | .error _ => .ok none

def retryAfterSeconds (py : Python) (exc : PyException) (attempt : ℕ) :
    Except PyError ℤ :=
  match positiveInt py exc.retryAfter with
  | .error error => .error error
  | .ok (some direct) => .ok (min direct MAX_RETRY_AFTER_SECONDS)
  | .ok none =>
      match positiveInt py exc.retryAfterHeader with
      | .error error => .error error
      | .ok (some parsed) => .ok (min parsed MAX_RETRY_AFTER_SECONDS)
      | .ok none =>
          let backoff := DEFAULT_RETRY_AFTER_SECONDS * 2 ^ (attempt - 1)
          .ok (min (backoff : ℤ) MAX_RETRY_AFTER_SECONDS)

theorem positiveInt_pos
    {py : Python} {value : Json} {parsed : ℤ}
    (hparsed : positiveInt py value = .ok (some parsed)) : 0 < parsed := by
  unfold positiveInt at hparsed
  split at hparsed
  · split at hparsed
    · next hpos =>
        cases hparsed
        exact hpos
    · cases hparsed
  · cases hparsed
  · cases hparsed

/-- Every delay lies between one second and five minutes. -/
theorem retryAfterSeconds_bounds
    {py : Python} {exc : PyException} {attempt : ℕ} {seconds : ℤ}
    (hseconds : retryAfterSeconds py exc attempt = .ok seconds) :
    0 < seconds ∧ seconds ≤ MAX_RETRY_AFTER_SECONDS := by
  unfold retryAfterSeconds at hseconds
  cases hdirect : positiveInt py exc.retryAfter with
  | error error => simp [hdirect] at hseconds
  | ok direct =>
      rw [hdirect] at hseconds
      cases direct with
      | some direct =>
          have hpos := positiveInt_pos hdirect
          cases hseconds
          simp [MAX_RETRY_AFTER_SECONDS, hpos]
      | none =>
          cases hheader : positiveInt py exc.retryAfterHeader with
          | error error => simp [hheader] at hseconds
          | ok header =>
              simp only [hheader] at hseconds
              cases header with
              | some parsed =>
                  have hpos := positiveInt_pos hheader
                  cases hseconds
                  simp [MAX_RETRY_AFTER_SECONDS, hpos]
              | none =>
                  have hpos : 0 < DEFAULT_RETRY_AFTER_SECONDS * 2 ^ (attempt - 1) := by
                    have htwo : 0 < 2 ^ (attempt - 1) := Nat.two_pow_pos _
                    exact Nat.mul_pos (by decide) htwo
                  cases hseconds
                  have hcast :
                      (0 : ℤ) <
                        (DEFAULT_RETRY_AFTER_SECONDS * 2 ^ (attempt - 1) : ℕ) := by
                    exact_mod_cast hpos
                  simp only [MAX_RETRY_AFTER_SECONDS, lt_min_iff, min_le_right,
                    and_true]
                  exact ⟨hcast, by decide⟩

example (py : Python) : isTransientRuntimeError py integrityError = .ok false := by
  rfl

end ManagedAgents

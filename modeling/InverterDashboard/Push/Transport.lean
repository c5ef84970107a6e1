import InverterDashboard.Push.Store
import InverterDashboard.Python.Value

/-
  What a browser may register: an endpoint of a known push provider and two keys.

  `urlsplit` and `b64decode` appear as far as an accepted text exercises them: an address literal
  in brackets is never a provider, and neither is a host with a zone. Whether 65 bytes are a
  point of the curve is decided by the cryptography package and is a parameter here.
-/

namespace InverterDashboard.Push

open Python Cerbo

/-! ## Endpoints -/

def char (c : Char) : CodePoint := CodePoint.ofChar c

/-- `EXACT_PUSH_HOSTS`. -/
def exactPushHosts : List Str :=
  [Str.lit "fcm.googleapis.com", Str.lit "updates.push.services.mozilla.com"]

/-- `PUSH_SUFFIXES`. -/
def pushSuffixes : List Str := [Str.lit ".push.apple.com", Str.lit ".notify.windows.com"]

/-- What `urlsplit` makes of a text with a scheme and an authority. -/
structure UrlParts where
  scheme : Str
  netloc : Str
  path : Str
  fragment : Str

/-- `urlsplit`; `none` without a scheme or an authority. -/
def urlsplit (url : Str) : Option UrlParts :=
  match url.dropWhile (· ≠ char ':') with
  | colon :: slash :: slash' :: rest =>
    if colon = char ':' ∧ slash = char '/' ∧ slash' = char '/' then
      let inNetloc := fun c => c ≠ char '/' ∧ c ≠ char '?' ∧ c ≠ char '#'
      let after := rest.dropWhile inNetloc
      some {
        scheme := Str.lower (url.takeWhile (· ≠ char ':'))
        netloc := rest.takeWhile inNetloc
        path := after.takeWhile fun c => c ≠ char '?' ∧ c ≠ char '#'
        fragment := (after.dropWhile (· ≠ char '#')).drop 1 }
    else none
  | _ => none

/-- `s.partition(sep)` without the separator. -/
def partition (sep : CodePoint) (s : Str) : Str × Str :=
  (s.takeWhile (· ≠ sep), (s.dropWhile (· ≠ sep)).drop 1)

def isHexDigit (c : CodePoint) : Bool :=
  (0x30 ≤ c.val ∧ c.val ≤ 0x39) ∨ (0x61 ≤ c.val ∧ c.val ≤ 0x66) ∨ (0x41 ≤ c.val ∧ c.val ≤ 0x46)

/-- `_check_bracketed_host` of a future address: `v[a-fA-F0-9]+\..+`. -/
def isFutureAddress (host : Str) : Bool :=
  match host with
  | [] => false
  | v :: rest =>
    let digits := rest.takeWhile isHexDigit
    match rest.dropWhile isHexDigit with
    | dot :: _ :: _ => v = char 'v' && !digits.isEmpty && dot = char '.'
    | _ => false

/-- `hostname` and the text of `port`, of an authority without user information. -/
def hostinfo (netloc : Str) : Option (Str × Str) :=
  if char '[' ∈ netloc ∨ char ']' ∈ netloc then
    match netloc with
    | [] => none
    | bracket :: rest =>
      let (host, after) := partition (char ']') rest
      if bracket = char '[' ∧ char ']' ∈ rest ∧ isFutureAddress host ∧
          (after = [] ∨ after.head? = some (char ':')) then
        some (Str.lower host, after.drop 1)
      else none
  else
    let (host, port) := partition (char ':') netloc
    some (Str.lower host, port)

def isAsciiDigit (c : CodePoint) : Bool := 0x30 ≤ c.val ∧ c.val ≤ 0x39

/-- `port in (None, 443)`. -/
def isHttpsPort (port : Str) : Bool :=
  port.isEmpty || (port.all isAsciiDigit && intOfDigits port = some 443)

/-- `[a-z0-9-]`. -/
def isLabelChar (c : CodePoint) : Bool :=
  isAsciiDigit c || (0x61 ≤ c.val && c.val ≤ 0x7a) || c = char '-'

/-- `[a-z0-9-]+(?:\.[a-z0-9-]+)*`. -/
def isHostPrefix (s : Str) : Bool :=
  (s.splitOn (char '.')).all fun label => !label.isEmpty && label.all isLabelChar

def isPushHost (host : Str) : Bool :=
  host ∈ exactPushHosts || pushSuffixes.any fun suffix =>
    suffix.isSuffixOf host && isHostPrefix (host.take (host.length - suffix.length))

/-- `endpoint_host`: whether it returns. -/
def acceptsEndpoint (endpoint : Str) : Bool :=
  if 2048 < endpoint.length || endpoint.any (fun c => c.val ≤ 32 || 127 ≤ c.val) ||
      char '\\' ∈ endpoint then false
  else match urlsplit endpoint with
    | none => false
    | some parts =>
      if char '@' ∈ parts.netloc then false
      else match hostinfo parts.netloc with
        | none => false
        | some (host, port) =>
          parts.scheme = Str.lit "https" && !host.isEmpty && isHttpsPort port &&
            (Str.lit "/").isPrefixOf parts.path && parts.fragment.isEmpty &&
            host.getLast? ≠ some (char '.') && isPushHost host

/-! ## Keys -/

/-- The six bits of a digit of the URL-safe alphabet. -/
def base64Digit? (c : CodePoint) : Option Nat :=
  if 0x41 ≤ c.val ∧ c.val ≤ 0x5a then some (c.val - 0x41)
  else if 0x61 ≤ c.val ∧ c.val ≤ 0x7a then some (c.val - 0x61 + 26)
  else if 0x30 ≤ c.val ∧ c.val ≤ 0x39 then some (c.val - 0x30 + 52)
  else if c = char '-' then some 62
  else if c = char '_' then some 63
  else none

/-- The bytes of base64 digits; what does not fill a byte is dropped. -/
def base64Bytes : List Nat → List UInt8
  | a :: b :: c :: d :: rest =>
    .ofNat (a * 4 + b / 16) :: .ofNat (b % 16 * 16 + c / 4) :: .ofNat (c % 4 * 64 + d) ::
      base64Bytes rest
  | [a, b, c] => [.ofNat (a * 4 + b / 16), .ofNat (b % 16 * 16 + c / 4)]
  | [a, b] => [.ofNat (a * 4 + b / 16)]
  | _ => []

def equalsSign : CodePoint := char '='

/-- `value.rstrip("=")`. -/
def rstripEquals (s : Str) : Str := s.rdropWhile (· = equalsSign)

/-- `_decode_key`: digits, at most two `=`, and after padding the decoder's exact length. -/
def decodeKey (value : Value) (size : Nat) : Option (List UInt8) :=
  match value with
  | .str s =>
    let digits := rstripEquals s
    let given := s.length - digits.length
    let padding := given + (4 - s.length % 4) % 4
    if digits.isEmpty || 2 < given || digits.length % 4 = 1 ||
        padding ≠ (4 - digits.length % 4) % 4 then none
    else match digits.mapM base64Digit? with
      | none => none
      | some ds => if (base64Bytes ds).length = size then some (base64Bytes ds) else none
  | _ => none

/-! ## Subscriptions -/

/-- A subscription as it is stored. -/
def Subscription.value (s : Subscription) : Value :=
  .dict [(Str.lit "endpoint", .str s.endpoint),
    (Str.lit "keys", .dict [(Str.lit "p256dh", .str s.p256dh), (Str.lit "auth", .str s.auth)])]

/-- `value.rstrip("=")` of a key that has been decoded. -/
def strippedKey (value : Value) : Str :=
  match value with
  | .str s => rstripEquals s
  | _ => []

variable (onCurve : List UInt8 → Bool)

/-- `validate_subscription`; `none` when it raises. -/
def validateSubscription (value : Value) : Option Subscription :=
  match value with
  | .dict members =>
    match Value.member (Str.lit "endpoint") members, Value.member (Str.lit "keys") members with
    | .str endpoint, .dict keys =>
      let p256dh := Value.member (Str.lit "p256dh") keys
      let auth := Value.member (Str.lit "auth") keys
      if acceptsEndpoint endpoint then
        match decodeKey p256dh 65, decodeKey auth 16 with
        | some point, some _ =>
          if onCurve point then some ⟨endpoint, strippedKey p256dh, strippedKey auth⟩ else none
        | _, _ => none
      else none
    | _, _ => none
  | _ => none

/-- `preferences`; `none` when it raises. -/
def preferencesOf (value : Value) : Option Preferences :=
  match value with
  | .dict members =>
    let key := fun (k : String) => Dict.find (Str.lit k) members
    match members.length, key "native", key "ev", key "water", key "lowBattery" with
    | 4, some (.bool native), some (.bool ev), some (.bool water), some (.bool lowBattery) =>
      some ⟨native, ev, water, lowBattery⟩
    | _, _, _, _, _ => none
  | _ => none

/-- Preferences as they are stored. -/
def Preferences.value (p : Preferences) : Value :=
  .dict [(Str.lit "native", .bool p.native), (Str.lit "ev", .bool p.ev),
    (Str.lit "water", .bool p.water), (Str.lit "lowBattery", .bool p.lowBattery)]

/-! ## Validation is idempotent -/

theorem rstripEquals_idem (s : Str) : rstripEquals (rstripEquals s) = rstripEquals s :=
  List.rdropWhile_idempotent _ s

theorem decodeKey_stripped {value : Value} {size : Nat} {bytes : List UInt8}
    (h : decodeKey value size = some bytes) :
    decodeKey (.str (strippedKey value)) size = some bytes := by
  unfold decodeKey at h
  split at h
  · next s =>
    dsimp only at h
    split at h
    · cases h
    · next hform =>
      simp only [Bool.or_eq_true, decide_eq_true_eq, not_or] at hform
      obtain ⟨⟨⟨hne, -⟩, hone⟩, -⟩ := hform
      unfold decodeKey strippedKey
      dsimp only
      rw [rstripEquals_idem, if_neg]
      · exact h
      · simp only [Bool.or_eq_true, decide_eq_true_eq, not_or]
        refine ⟨⟨⟨hne, by omega⟩, hone⟩, ?_⟩
        rw [Nat.sub_self, Nat.zero_add]
        exact fun h => h rfl
  · cases h

theorem strippedKey_idem (value : Value) : strippedKey (.str (strippedKey value)) = strippedKey value := by
  cases value with
  | str s => exact rstripEquals_idem s
  | none => rfl
  | bool b => rfl
  | int i => rfl
  | float x => rfl
  | list xs => rfl
  | dict members => rfl

variable {onCurve} in
/-- A stored subscription is accepted when its parts are, and its keys have no padding. -/
theorem validateSubscription_value {s : Subscription} {point auth : List UInt8}
    (hendpoint : acceptsEndpoint s.endpoint) (hpoint : decodeKey (.str s.p256dh) 65 = some point)
    (hauth : decodeKey (.str s.auth) 16 = some auth) (hcurve : onCurve point)
    (hp : strippedKey (.str s.p256dh) = s.p256dh) (ha : strippedKey (.str s.auth) = s.auth) :
    validateSubscription onCurve s.value = some s := by
  unfold validateSubscription Subscription.value
  simp only [Value.member, Dict.find, Str.lit_inj, Option.getD, reduceIte, String.reduceEq,
    hendpoint, hpoint, hauth, hcurve, hp, ha]

/-- What validation returns is accepted again, unchanged. -/
theorem validateSubscription_idem {value : Value} {s : Subscription}
    (h : validateSubscription onCurve value = some s) :
    validateSubscription onCurve s.value = some s := by
  unfold validateSubscription at h
  split at h
  · split at h
    · split at h
      · next hendpoint =>
        dsimp only at h
        split at h
        · next point auth hpoint hauth =>
          split at h
          · next hcurve =>
            obtain rfl := Option.some.inj h
            exact validateSubscription_value hendpoint (decodeKey_stripped hpoint)
              (decodeKey_stripped hauth) hcurve (strippedKey_idem _) (strippedKey_idem _)
          · cases h
        · cases h
      · cases h
    · cases h
  · cases h

theorem preferencesOf_value (p : Preferences) : preferencesOf p.value = some p := by
  simp [preferencesOf, Preferences.value, Dict.find]

end InverterDashboard.Push

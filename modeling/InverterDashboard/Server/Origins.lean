import InverterDashboard.Python.Url

/-
  Which requests may change something: the secret, and that a browser sends them from a page of the
  dashboard itself.

  `_websocket_origin_allowed` guards the WebSocket and the settings, `verify_origin` the push
  endpoints. Both compare what `urlsplit` finds in `Origin` and in `Host`.
  `websocketOriginAllowed_iff` says of the texts themselves when the first one agrees, and
  `verifyOrigin_agrees` that on one short `Origin` the second one is the first for `https` and JSON.
-/

namespace InverterDashboard.Server

open Python Python.Url

/-- The headers of a request, with names in lower case. -/
abbrev Headers := List (Str × Str)

namespace Headers

variable (headers : Headers)

/-- `headers.getlist(name)`. -/
def getlist (name : String) : List Str :=
  (headers.filter fun header => header.1 = Str.lit name).map Prod.snd

/-- `headers.get(name)`. -/
def get? (name : String) : Option Str := (headers.getlist name).head?

/-- `headers.get(name, "")`. -/
def getOrEmpty (name : String) : Str := (headers.get? name).getD []

end Headers

/-! ## The secret -/

/-- `auth[7:]` of an `Authorization` header that begins with `Bearer `. -/
def bearer (auth : Str) : Option Str :=
  if (Str.lit "Bearer ").isPrefixOf auth then some (auth.drop 7) else none

/-- `_verify_secret`: the status it raises. -/
def verifySecret (secret : Str) (headers : Headers) (token : Option Str) : Option Nat :=
  let auth := headers.getOrEmpty "authorization"
  if secret.isEmpty then none
  else if token.any (fun token => !token.isEmpty && token = secret) then none
  else if bearer auth = some secret then none
  else if token.all List.isEmpty && auth.isEmpty then some 401
  else some 403

/-- `_secret_authorized`. -/
def secretAuthorized (secret : Str) (headers : Headers) (token : Option Str) : Bool :=
  secret.isEmpty || token.any (fun token => !token.isEmpty && token = secret) ||
    bearer (headers.getOrEmpty "authorization") = some secret

/-- The two checks of the secret agree. -/
theorem verifySecret_eq_none {secret : Str} {headers : Headers} {token : Option Str} :
    verifySecret secret headers token = none ↔ secretAuthorized secret headers token = true := by
  unfold verifySecret secretAuthorized
  dsimp only
  split_ifs <;> simp_all

/-! ## The two guards -/

/-- `sec-fetch-site` is absent or says that the page is the dashboard's own. -/
def fetchSiteAllowed (headers : Headers) : Bool :=
  (headers.get? "sec-fetch-site").all fun site =>
    site = Str.lit "same-origin" || site = Str.lit "none"

/-- What neither guard accepts in a text. -/
def isUnsafe (c : CodePoint) : Bool := c.val ≤ 32 || 127 ≤ c.val || c = CodePoint.ofChar '\\'

/-- `port or default_port`. -/
def portOr (standard : Nat) (port : Option Nat) : Nat :=
  match port with
  | none => standard
  | some n => if n = 0 then standard else n

/-- What `_same_origin_host` accepts in neither text. -/
def isEncumbered (part : SplitResult) : Bool :=
  part.username.isSome || part.password.isSome || part.hostname.isNone || !part.path.isEmpty ||
    !part.query.isEmpty || !part.fragment.isEmpty

def http : Str := Str.lit "http"

def https : Str := Str.lit "https"

def schemeMark : Str := Str.lit "://"

def standardPort (scheme : Str) : Nat := if scheme = https then 443 else 80

/-- `_same_origin_host`. -/
def sameOriginHost (origin host : Str) : Bool :=
  match urlsplit origin with
  | none => false
  | some parsed =>
    match urlsplit (parsed.scheme ++ schemeMark ++ host) with
    | none => false
    | some target =>
      if parsed.scheme ≠ http ∧ parsed.scheme ≠ https then false
      else if [parsed, target].any isEncumbered then false
      else match parsed.port, target.port with
        | some port, some port' =>
          (parsed.hostname, portOr (standardPort parsed.scheme) port) =
            (target.hostname, portOr (standardPort parsed.scheme) port')
        | _, _ => false

/-- `_websocket_origin_allowed`. -/
def websocketOriginAllowed (headers : Headers) : Bool :=
  if !fetchSiteAllowed headers then false
  else match headers.getlist "origin" with
    | [] => true
    | [origin] =>
      let host := headers.getOrEmpty "host"
      if host.isEmpty || 2048 < origin.length || (origin ++ host).any isUnsafe then false
      else sameOriginHost origin host
    | _ => false

/-- `_origin_authority`; `none` when it raises. -/
def originAuthority (value : Str) : Option (Str × Nat) :=
  if value.any isUnsafe then none
  else match urlsplit value with
    | none => none
    | some parsed =>
      match parsed.hostname, parsed.port with
      | some host, some port =>
        if parsed.scheme ≠ https || parsed.username.isSome || parsed.password.isSome ||
            !parsed.path.isEmpty || !parsed.query.isEmpty || !parsed.fragment.isEmpty then none
        else some (host, portOr 443 port)
      | _, _ => none

/-- `content-type` up to a semicolon is JSON. -/
def isJsonContent (headers : Headers) : Bool :=
  Str.lower (Str.strip (cut (CodePoint.ofChar ';') (headers.getOrEmpty "content-type")).1) =
    Str.lit "application/json"

/-- `verify_origin`: the status it raises. -/
def verifyOrigin (headers : Headers) : Option Nat :=
  let origin := originAuthority (headers.getOrEmpty "origin")
  let host := originAuthority (https ++ schemeMark ++ headers.getOrEmpty "host")
  if origin.isNone || host.isNone || origin ≠ host || !fetchSiteAllowed headers then some 403
  else if !isJsonContent headers then some 415
  else none

/-! ## What they accept -/

/-- Two texts name one host, and one port where the standard one may be left out. -/
def SameAuthority (scheme text host : Str) : Prop :=
  ∃ name port port', Names text name port ∧ Names host name port' ∧
    portOr (standardPort scheme) port = portOr (standardPort scheme) port'

/-- The text is a scheme, in any case, and the authority that `host` names. -/
def SameOrigin (scheme origin host : Str) : Prop :=
  ∃ written text, origin = written ++ schemeMark ++ text ∧ Str.lower written = scheme ∧
    SameAuthority scheme text host

theorem schemeMark_append (name text : Str) :
    name ++ schemeMark ++ text = name ++ colonSign :: slash :: slash :: text :=
  List.append_assoc name schemeMark text

theorem isEncumbered_eq_false {r : SplitResult} :
    isEncumbered r = false ↔ r.Bare ∧ ∃ host, r.hostname = some host := by
  simp only [isEncumbered, Bool.or_eq_false_iff, Option.isSome_eq_false_iff,
    Option.isNone_eq_false_iff, Bool.not_eq_false', List.isEmpty_iff, Option.isNone_iff_eq_none,
    Option.isSome_iff_exists]
  constructor
  · rintro ⟨⟨⟨⟨⟨hname, hpassword⟩, hhost⟩, hpath⟩, hquery⟩, hfragment⟩
    exact ⟨⟨hname, hpassword, hpath, hquery, hfragment⟩, hhost⟩
  · rintro ⟨hbare, hhost⟩
    exact ⟨⟨⟨⟨⟨hbare.username, hbare.password⟩, hhost⟩, hbare.path⟩, hbare.query⟩, hbare.fragment⟩

/-- `_same_origin_host` in terms of the two results. -/
theorem sameOriginHost_split {origin host : Str} :
    sameOriginHost origin host = true ↔
      ∃ r r' : SplitResult, (r.scheme = http ∨ r.scheme = https) ∧ urlsplit origin = some r ∧
        urlsplit (r.scheme ++ schemeMark ++ host) = some r' ∧ r.Bare ∧ r'.Bare ∧
          ∃ name port port', r.hostname = some name ∧ r'.hostname = some name ∧
            r.port = some port ∧ r'.port = some port' ∧
              portOr (standardPort r.scheme) port = portOr (standardPort r.scheme) port' := by
  constructor
  · intro h
    unfold sameOriginHost at h
    split at h
    · cases h
    · next r hr =>
      split at h
      · cases h
      · next r' hr' =>
        split at h
        · cases h
        · next hscheme =>
          split at h
          · cases h
          · next hbare =>
            simp only [List.any_cons, List.any_nil, Bool.or_false, Bool.or_eq_true, not_or,
              Bool.not_eq_true, isEncumbered_eq_false] at hbare
            obtain ⟨⟨hbare, name, hname⟩, hbare', name', hname'⟩ := hbare
            split at h
            · next port port' hport hport' =>
              simp only [hname, hname', decide_eq_true_eq, Prod.mk.injEq, Option.some.injEq] at h
              obtain ⟨rfl, heq⟩ := h
              refine ⟨r, r', ?_, hr, hr', hbare, hbare', name, port, port', hname, hname', hport,
                hport', heq⟩
              by_cases hhttp : r.scheme = http
              · exact .inl hhttp
              · exact .inr (not_not.mp fun hhttps => hscheme ⟨hhttp, hhttps⟩)
            · cases h
  · rintro ⟨r, r', hscheme, hr, hr', hbare, hbare', name, port, port', hname, hname', hport, hport',
      heq⟩
    have hfalse : isEncumbered r = false := isEncumbered_eq_false.mpr ⟨hbare, name, hname⟩
    have hfalse' : isEncumbered r' = false := isEncumbered_eq_false.mpr ⟨hbare', name, hname'⟩
    have hallowed : ¬ (r.scheme ≠ http ∧ r.scheme ≠ https) := by tauto
    simp only [sameOriginHost, hr, hr', if_neg hallowed, List.any_cons, List.any_nil, hfalse, hfalse',
      hport, hport', hname, hname', heq]
    simp

theorem isScheme_http {written scheme : Str} (h : Str.lower written = scheme)
    (hscheme : scheme = http ∨ scheme = https) : IsScheme written := by
  obtain rfl | rfl := hscheme
  · exact .of_lower h (by decide) (by decide)
  · exact .of_lower h (by decide) (by decide)

/-- **`_same_origin_host`, of the texts.** The origin is `http` or `https` and an authority, and
    `host` names the same one. -/
theorem sameOriginHost_iff {origin host : Str} :
    sameOriginHost origin host = true ↔
      SameOrigin http origin host ∨ SameOrigin https origin host := by
  have hor : SameOrigin http origin host ∨ SameOrigin https origin host ↔
      ∃ scheme, (scheme = http ∨ scheme = https) ∧ SameOrigin scheme origin host := by
    simp
  rw [sameOriginHost_split, hor]
  constructor
  · rintro ⟨r, r', hscheme, hr, hr', hbare, hbare', name, port, port', hname, hname', hport, hport',
      heq⟩
    have hne : r.scheme ≠ [] := by
      rcases hscheme with h | h <;> rw [h] <;> decide
    obtain ⟨written, text, rfl, hwritten, hlower, hnames⟩ :=
      (bare_iff hne).mp ⟨r, hr, rfl, hbare, hname, hport⟩
    have hself : IsScheme r.scheme :=
      isScheme_http (by rcases hscheme with h | h <;> rw [h] <;> decide) hscheme
    rw [schemeMark_append] at hr'
    exact ⟨r.scheme, hscheme, written, text, (schemeMark_append _ _).symm, hlower, name, port, port',
      hnames, (bare_behind hself).mp ⟨r', hr', hbare', hname', hport'⟩, heq⟩
  · rintro ⟨scheme, hscheme, written, text, rfl, hlower, name, port, port', htext, hhost, heq⟩
    have hwritten := isScheme_http hlower hscheme
    have hne : scheme ≠ [] := by
      rcases hscheme with h | h <;> rw [h] <;> decide
    have hself : IsScheme scheme :=
      isScheme_http (by rcases hscheme with h | h <;> rw [h] <;> decide) hscheme
    obtain ⟨r, hr, rfl, hbare, hname, hport⟩ :=
      (bare_iff hne).mpr ⟨written, text, rfl, hwritten, hlower, htext⟩
    obtain ⟨r', hr', hbare', hname', hport'⟩ := (bare_behind hself).mpr hhost
    exact ⟨r, r', hscheme, schemeMark_append written text ▸ hr,
      schemeMark_append r.scheme host ▸ hr', hbare, hbare', name, port, port', hname, hname', hport,
      hport', heq⟩

theorem names_ne_nil {text name : Str} {port : Option Nat} (h : Names text name port) :
    text ≠ [] := by
  obtain ⟨hhost, -, -, -⟩ := h
  exact List.append_ne_nil_of_left_ne_nil (List.append_ne_nil_of_left_ne_nil hhost.ne_nil _) _

theorem SameOrigin.host_ne_nil {scheme origin host : Str} (h : SameOrigin scheme origin host) :
    host ≠ [] := by
  obtain ⟨_, _, _, _, _, _, _, _, hhost, _⟩ := h
  exact names_ne_nil hhost

/-- An origin and a `Host` that name one authority each agree when it is the same one. -/
theorem sameOrigin_of_names {scheme written text host name name' : Str} {port port' : Option Nat}
    (hscheme : scheme = http ∨ scheme = https) (hwritten : IsScheme written)
    (htext : Names text name port) (hhost : Names host name' port') :
    SameOrigin scheme (written ++ schemeMark ++ text) host ↔
      Str.lower written = scheme ∧ name = name' ∧
        portOr (standardPort scheme) port = portOr (standardPort scheme) port' := by
  constructor
  · rintro ⟨written', text', heq, hlower, found, number, number', hnames, hnames', hports⟩
    rw [schemeMark_append, schemeMark_append] at heq
    obtain ⟨rfl, hrest⟩ := hwritten.append_inj (isScheme_http hlower hscheme) heq
    obtain rfl : text = text' := by simpa using hrest
    obtain ⟨rfl, rfl⟩ := htext.unique hnames
    obtain ⟨rfl, rfl⟩ := hhost.unique hnames'
    exact ⟨hlower, rfl, hports⟩
  · rintro ⟨hlower, rfl, hports⟩
    exact ⟨written, text, rfl, hlower, name, port, port', htext, hhost, hports⟩

/-- With one `Origin`, the guard of the WebSocket looks at it and at `Host`. -/
theorem websocketOriginAllowed_one {headers : Headers} {origin : Str}
    (hone : headers.getlist "origin" = [origin]) :
    websocketOriginAllowed headers = true ↔
      fetchSiteAllowed headers = true ∧ origin.length ≤ 2048 ∧
        (∀ c ∈ origin ++ headers.getOrEmpty "host", isUnsafe c = false) ∧
        (SameOrigin http origin (headers.getOrEmpty "host") ∨
          SameOrigin https origin (headers.getOrEmpty "host")) := by
  generalize hhost : headers.getOrEmpty "host" = host
  unfold websocketOriginAllowed
  rw [hhost, hone]
  dsimp only
  cases hsite : fetchSiteAllowed headers with
  | false => simp
  | true =>
    simp only [Bool.not_true, Bool.false_eq_true, if_false, true_and]
    constructor
    · intro h
      split at h
      · cases h
      · next hsafe =>
        simp only [Bool.or_eq_true, decide_eq_true_eq, not_or, Nat.not_lt,
          List.any_eq_true, not_exists, not_and, Bool.not_eq_true] at hsafe
        obtain ⟨⟨-, hlength⟩, hsafe⟩ := hsafe
        exact ⟨hlength, hsafe, sameOriginHost_iff.mp h⟩
    · rintro ⟨hlength, hsafe, hsame⟩
      have hne : host ≠ [] := hsame.elim SameOrigin.host_ne_nil SameOrigin.host_ne_nil
      have hany : (origin ++ host).any isUnsafe = false := List.any_eq_false.mpr fun c hc => by
        simp [hsafe c hc]
      have hnot : (host.isEmpty || decide (2048 < origin.length) ||
          (origin ++ host).any isUnsafe) = false := by
        rw [hany, decide_eq_false (Nat.not_lt.mpr hlength)]
        simpa using hne
      rw [if_neg (by rw [hnot]; exact Bool.false_ne_true)]
      exact sameOriginHost_iff.mpr hsame

/-- **The guard of the WebSocket and the settings.** A request passes when it does not come from
    another site's page, and has no `Origin` or exactly one, printable and of at most 2048
    characters, that names the authority of its `Host`. -/
theorem websocketOriginAllowed_iff {headers : Headers} :
    websocketOriginAllowed headers = true ↔
      fetchSiteAllowed headers = true ∧
      (headers.getlist "origin" = [] ∨
        ∃ origin, headers.getlist "origin" = [origin] ∧ origin.length ≤ 2048 ∧
          (∀ c ∈ origin ++ headers.getOrEmpty "host", isUnsafe c = false) ∧
          (SameOrigin http origin (headers.getOrEmpty "host") ∨
            SameOrigin https origin (headers.getOrEmpty "host"))) := by
  match horigin : headers.getlist "origin" with
  | [] => simp [websocketOriginAllowed, horigin]
  | [origin] =>
    rw [websocketOriginAllowed_one horigin]
    constructor
    · rintro ⟨hsite, hrest⟩
      exact ⟨hsite, .inr ⟨origin, rfl, hrest⟩⟩
    · rintro ⟨hsite, hnil | ⟨origin', hone, hrest⟩⟩
      · cases hnil
      · obtain rfl : origin = origin' := (List.cons.inj hone).1
        exact ⟨hsite, hrest⟩
  | _ :: _ :: _ => simp [websocketOriginAllowed, horigin]

/-- `_origin_authority` in terms of the result. -/
theorem originAuthority_split {value name : Str} {number : Nat} :
    originAuthority value = some (name, number) ↔
      (∀ c ∈ value, isUnsafe c = false) ∧ ∃ port, portOr 443 port = number ∧
        ∃ r, urlsplit value = some r ∧ r.scheme = https ∧ r.Bare ∧ r.hostname = some name ∧
          r.port = some port := by
  constructor
  · intro h
    unfold originAuthority at h
    split at h
    · cases h
    · next hsafe =>
      split at h
      · cases h
      · next r hr =>
        split at h
        · next name' port hname hport =>
          split at h
          · cases h
          · next hbare =>
            simp only [Bool.or_eq_true, not_or, decide_eq_true_eq, not_not, Bool.not_eq_true,
              Option.isSome_eq_false_iff, Option.isNone_iff_eq_none, Bool.not_eq_false',
              List.isEmpty_iff] at hbare
            obtain ⟨⟨⟨⟨⟨hscheme, huser⟩, hpassword⟩, hpath⟩, hquery⟩, hfragment⟩ := hbare
            obtain ⟨rfl, rfl⟩ := Prod.mk.inj (Option.some.inj h)
            have hsafe : ∀ c ∈ value, isUnsafe c = false := by simpa using hsafe
            exact ⟨hsafe, port, rfl, r, hr, hscheme,
              ⟨huser, hpassword, hpath, hquery, hfragment⟩, hname, hport⟩
        · cases h
  · rintro ⟨hsafe, port, rfl, r, hr, hscheme, hbare, hname, hport⟩
    have hany : value.any isUnsafe = false := List.any_eq_false.mpr fun c hc => by simp [hsafe c hc]
    simp only [originAuthority, hany, Bool.false_eq_true, if_false, hr, hname, hport, hscheme,
      hbare.username, hbare.password, hbare.path, hbare.query, hbare.fragment]
    simp

theorem originAuthority_iff {value name : Str} {number : Nat} :
    originAuthority value = some (name, number) ↔
      (∀ c ∈ value, isUnsafe c = false) ∧ ∃ written text port,
        value = written ++ schemeMark ++ text ∧ Str.lower written = https ∧
          Names text name port ∧ portOr 443 port = number := by
  rw [originAuthority_split]
  refine and_congr_right fun _ => ⟨?_, ?_⟩
  · rintro ⟨port, hnumber, hsplit⟩
    obtain ⟨written, text, rfl, -, hlower, hnames⟩ := (bare_iff (by decide)).mp hsplit
    exact ⟨written, text, port, (schemeMark_append _ _).symm, hlower, hnames, hnumber⟩
  · rintro ⟨written, text, port, rfl, hlower, hnames, hnumber⟩
    refine ⟨port, hnumber, ?_⟩
    rw [schemeMark_append]
    exact (bare_iff (by decide)).mpr
      ⟨written, text, rfl, isScheme_http hlower (.inr rfl), hlower, hnames⟩

/-- The authority of a `Host` header behind `https://`. -/
theorem originAuthority_host {host name : Str} {number : Nat} :
    originAuthority (https ++ schemeMark ++ host) = some (name, number) ↔
      (∀ c ∈ host, isUnsafe c = false) ∧
        ∃ port, Names host name port ∧ portOr 443 port = number := by
  rw [originAuthority_split, schemeMark_append]
  have hscheme : IsScheme https := isScheme_http (by decide) (.inr rfl)
  refine and_congr ?_ ⟨?_, ?_⟩
  · refine ⟨fun h c hc => h c (by simp [hc]), fun h c hc => ?_⟩
    have hfront : (https ++ schemeMark).all (fun c => !isUnsafe c) = true := by decide
    rw [← schemeMark_append] at hc
    rcases List.mem_append.mp hc with hc | hc
    · simpa using List.all_eq_true.mp hfront c hc
    · exact h c hc
  · rintro ⟨port, hnumber, r, hr, -, hrest⟩
    exact ⟨port, (bare_behind hscheme).mp ⟨r, hr, hrest⟩, hnumber⟩
  · rintro ⟨port, hnames, hnumber⟩
    exact ⟨port, hnumber, (bare_iff (by decide)).mpr
      ⟨https, host, rfl, hscheme, by decide, hnames⟩⟩

/-- **The guard of the push endpoints.** -/
theorem verifyOrigin_iff {headers : Headers} :
    verifyOrigin headers = none ↔
      fetchSiteAllowed headers = true ∧ isJsonContent headers = true ∧
        (∀ c ∈ headers.getOrEmpty "origin" ++ headers.getOrEmpty "host", isUnsafe c = false) ∧
          SameOrigin https (headers.getOrEmpty "origin") (headers.getOrEmpty "host") := by
  generalize horigin : headers.getOrEmpty "origin" = origin
  generalize hhost : headers.getOrEmpty "host" = host
  have hsame : (∃ a, originAuthority origin = some a ∧
      originAuthority (https ++ schemeMark ++ host) = some a) ↔
      (∀ c ∈ origin ++ host, isUnsafe c = false) ∧ SameOrigin https origin host := by
    constructor
    · rintro ⟨⟨name, number⟩, horigin, hhost⟩
      obtain ⟨hsafe, written, text, port, heq, hlower, hnames, hnumber⟩ :=
        originAuthority_iff.mp horigin
      obtain ⟨hsafe', port', hnames', hnumber'⟩ := originAuthority_host.mp hhost
      exact ⟨fun c hc => (List.mem_append.mp hc).elim (hsafe c) (hsafe' c),
        written, text, heq, hlower, name, port, port', hnames, hnames', hnumber.trans hnumber'.symm⟩
    · rintro ⟨hsafe, written, text, heq, hlower, name, port, port', hnames, hnames', hnumber⟩
      exact ⟨(name, portOr 443 port),
        originAuthority_iff.mpr ⟨fun c hc => hsafe c (List.mem_append_left _ hc), written, text, port,
          heq, hlower, hnames, rfl⟩,
        originAuthority_host.mpr ⟨fun c hc => hsafe c (List.mem_append_right _ hc), port', hnames',
          hnumber.symm⟩⟩
  rw [← hsame]
  unfold verifyOrigin
  rw [horigin, hhost]
  dsimp only
  cases originAuthority origin with
  | none => simp
  | some a =>
    cases originAuthority (https ++ schemeMark ++ host) with
    | none => simp
    | some b =>
      by_cases hab : a = b
      · subst hab
        cases fetchSiteAllowed headers <;> cases isJsonContent headers <;> simp
      · have hba : b ≠ a := fun e => hab e.symm
        simp [hab, hba]

/-- **The two guards agree.** On a request with one `Origin` of at most 2048 characters, the guard
    of the push endpoints is that of the WebSocket for an `https` origin and a JSON body. -/
theorem verifyOrigin_agrees {headers : Headers} {origin : Str}
    (hone : headers.getlist "origin" = [origin]) (hlength : origin.length ≤ 2048) :
    verifyOrigin headers = none ↔
      websocketOriginAllowed headers = true ∧ isJsonContent headers = true ∧
        Str.lower (cut colonSign origin).1 = https := by
  have horigin : headers.getOrEmpty "origin" = origin := by
    rw [Headers.getOrEmpty, Headers.get?, hone]
    rfl
  have hscheme : ∀ scheme host, (scheme = http ∨ scheme = https) → SameOrigin scheme origin host →
      Str.lower (cut colonSign origin).1 = scheme := by
    rintro scheme host hweb ⟨written, text, rfl, hlower, -⟩
    rw [schemeMark_append, ← onward_some, cut_append (isScheme_http hlower hweb).colon_notMem]
    exact hlower
  rw [verifyOrigin_iff, websocketOriginAllowed_one hone, horigin]
  constructor
  · rintro ⟨hsite, hjson, hsafe, hsame⟩
    exact ⟨⟨hsite, hlength, hsafe, .inr hsame⟩, hjson, hscheme _ _ (.inr rfl) hsame⟩
  · rintro ⟨⟨hsite, -, hsafe, hsame⟩, hjson, hlower⟩
    refine ⟨hsite, hjson, hsafe, hsame.resolve_left fun hhttp => ?_⟩
    have hboth := (hscheme _ _ (.inl rfl) hhttp).symm.trans hlower
    exact absurd hboth (by decide)

/-- A page of the dashboard behind its own `https` ingress. -/
theorem verifyOrigin_agrees_ingress :
    verifyOrigin [(Str.lit "host", Str.lit "dash.local"),
        (Str.lit "content-type", Str.lit "application/json; charset=utf-8"),
        (Str.lit "origin", Str.lit "HTTPS://Dash.local:443")] = none :=
  (@verifyOrigin_agrees _ (Str.lit "HTTPS://Dash.local:443") (by decide +kernel)
    (by decide +kernel)).mpr (by decide +kernel)

end InverterDashboard.Server

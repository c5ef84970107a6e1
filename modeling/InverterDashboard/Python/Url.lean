import Mathlib.Data.List.DropRight
import InverterDashboard.Python.Text

/-
  `urllib.parse.urlsplit`, and the user information, host and port of its result.

  A text is printable ASCII here, as its callers check before they split it: what `urlsplit` strips
  from a text, removes or normalizes does not occur in one. `none` is a `ValueError`.

  `urlsplit_iff` says which texts an absolute URL has, part by part, and `netloc_iff` which ones an
  authority without user information has.
-/

namespace Python.Url

def colonSign : CodePoint := CodePoint.ofChar ':'

def atSign : CodePoint := CodePoint.ofChar '@'

def questionMark : CodePoint := CodePoint.ofChar '?'

def hashSign : CodePoint := CodePoint.ofChar '#'

def openBracket : CodePoint := CodePoint.ofChar '['

def closeBracket : CodePoint := CodePoint.ofChar ']'

def percent : CodePoint := CodePoint.ofChar '%'

def dot : CodePoint := CodePoint.ofChar '.'

/-! ## Cutting a text -/

/-- `s.partition(sep)`; there is no second text when there is no separator. -/
def cut (sep : CodePoint) (s : Str) : Str × Option Str :=
  match s.dropWhile (· ≠ sep) with
  | [] => (s, none)
  | _ :: after => (s.takeWhile (· ≠ sep), some after)

/-- What a text has from a separator on. -/
def onward (sep : CodePoint) : Option Str → Str
  | none => []
  | some after => sep :: after

@[simp] theorem onward_none (sep : CodePoint) : onward sep none = [] := rfl

@[simp] theorem onward_some (sep : CodePoint) (s : Str) : onward sep (some s) = sep :: s := rfl

/-- A text ends where its characters do. -/
theorem span_append {p : CodePoint → Bool} {a b : Str} (ha : ∀ x ∈ a, p x = true)
    (hb : ∀ c ∈ b.head?, p c = false) :
    (a ++ b).takeWhile p = a ∧ (a ++ b).dropWhile p = b := by
  rw [List.takeWhile_append_of_pos ha, List.dropWhile_append_of_pos ha]
  cases b with
  | nil => simp
  | cons c b => simp [hb c rfl]

theorem ne_of_notMem {c : CodePoint} {a : Str} (h : c ∉ a) :
    ∀ x ∈ a, decide (x ≠ c) = true := by
  intro x hx
  have hne : x ≠ c := fun e => h (e ▸ hx)
  simpa using hne

theorem cut_append {sep : CodePoint} {a : Str} (h : sep ∉ a) (b : Option Str) :
    cut sep (a ++ onward sep b) = (a, b) := by
  cases b with
  | none =>
    have hd : a.dropWhile (· ≠ sep) = [] := List.dropWhile_eq_nil_iff.mpr (ne_of_notMem h)
    unfold cut
    rw [onward_none, List.append_nil, hd]
  | some b =>
    have hstop : ∀ c ∈ (sep :: b).head?, decide (c ≠ sep) = false := by simp
    obtain ⟨ht, hd⟩ := span_append (ne_of_notMem h) hstop
    unfold cut
    rw [onward_some, hd]
    simp only [ht]

/-- A text is cut at its first separator. -/
theorem cut_iff {sep : CodePoint} {s a : Str} {b : Option Str} :
    cut sep s = (a, b) ↔ s = a ++ onward sep b ∧ sep ∉ a := by
  refine ⟨fun h => ?_, fun ⟨hs, ha⟩ => hs ▸ cut_append ha b⟩
  have hsplit := List.takeWhile_append_dropWhile (p := (· ≠ sep)) (l := s)
  unfold cut at h
  cases hd : s.dropWhile (· ≠ sep) with
  | nil =>
    rw [hd] at h
    obtain ⟨rfl, rfl⟩ := Prod.mk.inj h
    refine ⟨by simp, fun hm => ?_⟩
    have := List.dropWhile_eq_nil_iff.mp hd sep hm
    simp at this
  | cons c after =>
    rw [hd] at h hsplit
    obtain ⟨rfl, rfl⟩ := Prod.mk.inj h
    have hc : c = sep := by
      have := List.head?_dropWhile_not (p := fun x : CodePoint => decide (x ≠ sep)) (l := s)
      rw [hd] at this
      simpa using this
    rw [hc] at hsplit
    refine ⟨hsplit.symm, fun hm => ?_⟩
    have := List.mem_takeWhile_imp hm
    simp at this

/-- Every text is one that is cut somewhere. -/
theorem exists_cut (sep : CodePoint) (s : Str) :
    ∃ a b, s = a ++ onward sep b ∧ sep ∉ a ∧ cut sep s = (a, b) :=
  ⟨_, _, (cut_iff.mp rfl).1, (cut_iff.mp rfl).2, rfl⟩

/-! ## Characters -/

def isDigit (c : CodePoint) : Bool := 0x30 ≤ c.val ∧ c.val ≤ 0x39

def isLetter (c : CodePoint) : Bool :=
  (0x41 ≤ c.val ∧ c.val ≤ 0x5a) ∨ (0x61 ≤ c.val ∧ c.val ≤ 0x7a)

def isHexDigit (c : CodePoint) : Bool :=
  isDigit c ∨ (0x41 ≤ c.val ∧ c.val ≤ 0x46) ∨ (0x61 ≤ c.val ∧ c.val ≤ 0x66)

/-- `scheme_chars`. -/
def isSchemeChar (c : CodePoint) : Bool :=
  isLetter c || isDigit c || c = CodePoint.ofChar '+' || c = CodePoint.ofChar '-' || c = dot

/-- The characters of `netloc`, which ends at the path, the query or the fragment. -/
def inNetloc (c : CodePoint) : Bool := c ≠ slash ∧ c ≠ questionMark ∧ c ≠ hashSign

/-! ## Address literals -/

/-- `IPv4Address._parse_octet`. -/
def isOctet (s : Str) : Bool :=
  !s.isEmpty && s.all isDigit && s.length ≤ 3 &&
    (s = Str.lit "0" || s.head? ≠ some (CodePoint.ofChar '0')) &&
      (intOfDigits s).any (· ≤ 255)

/-- Whether `IPv4Address` accepts a text without `/`. -/
def isIPv4 (s : Str) : Bool :=
  let octets := s.splitOn dot
  octets.length = 4 && octets.all isOctet

/-- `IPv6Address._parse_hextet`, of which an empty one is never asked. -/
def isHextet (s : Str) : Bool := s.all isHexDigit && s.length ≤ 4

/-- The parts of an IPv6 address, an IPv4 address at the end counted as two. -/
def hextets (s : Str) : Option (List Str) :=
  let parts := s.splitOn colonSign
  let tail := parts.getLast?.getD []
  if parts.length < 3 then none
  else if dot ∈ tail then
    if isIPv4 tail then some (parts.dropLast ++ [Str.lit "0", Str.lit "0"]) else none
  else some parts

/-- The rest of `IPv6Address._ip_int_from_string`: at most one `::`, and eight parts without it. -/
def areHextets (parts : List Str) : Bool :=
  let middle := parts.tail.dropLast
  let first := parts.head?.getD []
  let tail := parts.getLast?.getD []
  if 9 < parts.length then false
  else match middle.findIdx? List.isEmpty with
    | none => parts.length = 8 && !first.isEmpty && !tail.isEmpty && parts.all isHextet
    | some skipped =>
      -- The parts before `::` and after it; an empty end belongs to `::` itself.
      let high := parts.take (skipped + 1)
      let low := parts.drop (skipped + 2)
      let high' := if first.isEmpty then high.tail else high
      let low' := if tail.isEmpty then low.dropLast else low
      (middle.drop (skipped + 1)).all (fun part => !part.isEmpty) &&
        (first.isEmpty → high' = []) && (tail.isEmpty → low' = []) &&
        high'.length + low'.length < 8 && (high' ++ low').all isHextet

/-- Whether `IPv6Address` accepts a text: an address, and a zone behind `%`. -/
def isIPv6 (s : Str) : Bool :=
  let (address, zone) := cut percent s
  slash ∉ s && zone.all (fun zone => !zone.isEmpty && percent ∉ zone) &&
    (hextets address).any areHextets

theorem colon_mem_of_isIPv6 {s : Str} (h : isIPv6 s = true) : colonSign ∈ s := by
  obtain ⟨address, zone, rfl, -, hcut⟩ := exists_cut percent s
  unfold isIPv6 at h
  rw [hcut] at h
  by_contra hcolon
  have hcolon' : ∀ c ∈ address, (c == colonSign) = false := by
    intro c hc
    have hne : c ≠ colonSign := fun e => hcolon (List.mem_append_left _ (e ▸ hc))
    simpa using hne
  have hparts : address.splitOn colonSign = [address] := List.splitOnP_eq_singleton hcolon'
  simp [hextets, hparts] at h

/-- `_check_bracketed_host`: `v[a-fA-F0-9]+\..+`, or an IPv6 address. -/
def checkBracketedHost (host : Str) : Bool :=
  match host with
  | [] => false
  | v :: rest =>
    if v = CodePoint.ofChar 'v' then
      let digits := rest.takeWhile isHexDigit
      match rest.dropWhile isHexDigit with
      | c :: _ :: _ => !digits.isEmpty && c = dot
      | _ => false
    else isIPv6 host

/-! ## `urlsplit` -/

structure SplitResult where
  scheme : Str
  netloc : Str
  path : Str
  query : Str
  fragment : Str

/-- `netloc.rpartition("@")[2]`. -/
def hostPart (netloc : Str) : Str := netloc.rtakeWhile (· ≠ atSign)

/-- `_check_bracketed_netloc`. -/
def checkBracketedNetloc (netloc : Str) : Bool :=
  match cut openBracket (hostPart netloc) with
  | (before, some bracketed) =>
    let (host, after) := cut closeBracket bracketed
    let port := after.getD []
    before.isEmpty && (port.isEmpty || port.head? = some colonSign) && checkBracketedHost host
  | (info, none) => checkBracketedHost (cut colonSign info).1

/-- What `urlsplit` checks of brackets. -/
def checkBrackets (netloc : Str) : Bool :=
  if openBracket ∈ netloc ∨ closeBracket ∈ netloc then
    openBracket ∈ netloc && closeBracket ∈ netloc && checkBracketedNetloc netloc
  else true

/-- The scheme in lower case and what follows it, or the whole text. -/
def splitScheme (url : Str) : Str × Str :=
  match cut colonSign url with
  | (name, some rest) =>
    if name.head?.any isLetter && name.all isSchemeChar then (Str.lower name, rest) else ([], url)
  | (_, none) => ([], url)

/-- `_splitnetloc(url, 2)` behind `//`, and nothing elsewhere. -/
def splitNetloc (url : Str) : Str × Str :=
  match url with
  | a :: b :: rest =>
    if a = slash ∧ b = slash then (rest.takeWhile inNetloc, rest.dropWhile inNetloc) else ([], url)
  | _ => ([], url)

def urlsplit (url : Str) : Option SplitResult :=
  let (scheme, url) := splitScheme url
  let (netloc, url) := splitNetloc url
  if checkBrackets netloc then
    let (url, fragment) := cut hashSign url
    let (path, query) := cut questionMark url
    some ⟨scheme, netloc, path, query.getD [], fragment.getD []⟩
  else none

namespace SplitResult

variable (r : SplitResult)

/-- `_userinfo`. -/
def userinfo : Option (Str × Option Str) :=
  if atSign ∈ r.netloc then
    some (cut colonSign (r.netloc.rdropWhile (· ≠ atSign)).dropLast)
  else none

def username : Option Str := r.userinfo.map Prod.fst

def password : Option Str := r.userinfo.bind Prod.snd

/-- `_hostinfo`: the host, and the text of the port when there is one. -/
def hostinfo : Str × Option Str :=
  let info := hostPart r.netloc
  let (host, port) := match cut openBracket info with
    | (_, some bracketed) =>
      let (host, after) := cut closeBracket bracketed
      (host, (cut colonSign (after.getD [])).2)
    | (_, none) => cut colonSign info
  (host, port.filter fun text => !text.isEmpty)

end SplitResult

/-- A host in lower case; the zone of an address keeps its case. -/
def lowerHost (host : Str) : Str :=
  let (name, zone) := cut percent host
  Str.lower name ++ onward percent zone

/-- `int(port)`, up to 65535. -/
def portNumber (text : Str) : Option Nat :=
  if text.all isDigit then (intOfDigits text).filter (· ≤ 65535) else none

namespace SplitResult

variable (r : SplitResult)

def hostname : Option Str := if r.hostinfo.1.isEmpty then none else some (lowerHost r.hostinfo.1)

/-- `port`; the outer `none` is a `ValueError`. -/
def port : Option (Option Nat) :=
  match r.hostinfo.2 with
  | none => some none
  | some text => (portNumber text).map some

end SplitResult

/-! ## The texts of an absolute URL -/

/-- A scheme as it is written. -/
def IsScheme (name : Str) : Prop := name.head?.any isLetter = true ∧ name.all isSchemeChar = true

/-- A text with a scheme and an authority, and what it is split into. -/
inductive Absolute : Str → SplitResult → Prop
  | mk {name netloc path : Str} {query fragment : Option Str} (hscheme : IsScheme name)
      (hnetloc : ∀ c ∈ netloc, inNetloc c = true) (hbrackets : checkBrackets netloc = true)
      (hpath : path = [] ∨ path.head? = some slash) (hplain : questionMark ∉ path)
      (hquery : hashSign ∉ path ++ onward questionMark query) :
      Absolute (name ++ colonSign :: slash :: slash ::
          (netloc ++ (path ++ onward questionMark query ++ onward hashSign fragment)))
        ⟨Str.lower name, netloc, path, query.getD [], fragment.getD []⟩

theorem IsScheme.ne_nil {name : Str} (h : IsScheme name) : name ≠ [] := by
  rintro rfl
  cases h.1

theorem IsScheme.colon_notMem {name : Str} (h : IsScheme name) : colonSign ∉ name := by
  intro hm
  have := List.all_eq_true.mp h.2 colonSign hm
  revert this
  decide

theorem splitScheme_append {name : Str} (h : IsScheme name) (rest : Str) :
    splitScheme (name ++ colonSign :: rest) = (Str.lower name, rest) := by
  unfold splitScheme
  rw [← onward_some, cut_append h.colon_notMem]
  simp only [h.1, h.2, Bool.and_self, if_true]

/-- A scheme is found only where one is written. -/
theorem splitScheme_ne_nil {url scheme rest : Str} (h : splitScheme url = (scheme, rest))
    (hne : scheme ≠ []) :
    ∃ name, url = name ++ colonSign :: rest ∧ IsScheme name ∧ scheme = Str.lower name := by
  obtain ⟨name, after, rfl, -, hcut⟩ := exists_cut colonSign url
  unfold splitScheme at h
  rw [hcut] at h
  cases after with
  | none => exact absurd (Prod.mk.inj h).1.symm hne
  | some after =>
    dsimp only at h
    split at h
    · next hscheme =>
      obtain ⟨rfl, rfl⟩ := Prod.mk.inj h
      exact ⟨name, rfl, by simpa [IsScheme] using hscheme, rfl⟩
    · exact absurd (Prod.mk.inj h).1.symm hne

theorem splitNetloc_append {netloc rest : Str} (hnetloc : ∀ c ∈ netloc, inNetloc c = true)
    (hrest : ∀ c ∈ rest.head?, inNetloc c = false) :
    splitNetloc (slash :: slash :: (netloc ++ rest)) = (netloc, rest) := by
  obtain ⟨ht, hd⟩ := span_append hnetloc hrest
  simp [splitNetloc, ht, hd]

/-- An authority is found only behind `//`. -/
theorem splitNetloc_ne_nil {url netloc rest : Str} (h : splitNetloc url = (netloc, rest))
    (hne : netloc ≠ []) :
    url = slash :: slash :: (netloc ++ rest) ∧ (∀ c ∈ netloc, inNetloc c = true) ∧
      ∀ c ∈ rest.head?, inNetloc c = false := by
  unfold splitNetloc at h
  split at h
  · next a b text =>
    split at h
    · next hslashes =>
      obtain ⟨rfl, rfl⟩ := Prod.mk.inj h
      refine ⟨?_, fun c => List.mem_takeWhile_imp, fun c hc => ?_⟩
      · rw [List.takeWhile_append_dropWhile, hslashes.1, hslashes.2]
      · have := List.head?_dropWhile_not (p := inNetloc) (l := text)
        rw [Option.mem_def.mp hc] at this
        simpa using this
    · exact absurd (Prod.mk.inj h).1.symm hne
  · exact absurd (Prod.mk.inj h).1.symm hne

/-- Behind the authority comes a path, and none when the next character is not a slash. -/
theorem path_start {path : Str} {query fragment : Option Str} (hplain : questionMark ∉ path)
    (hquery : hashSign ∉ path ++ onward questionMark query) :
    (∀ c ∈ (path ++ onward questionMark query ++ onward hashSign fragment).head?,
        inNetloc c = false) ↔ path = [] ∨ path.head? = some slash := by
  cases path with
  | nil =>
    cases query <;> cases fragment <;> simp [inNetloc]
  | cons c path =>
    have hmark : c ≠ questionMark := fun e => hplain (e ▸ List.mem_cons_self)
    have hhash : c ≠ hashSign := fun e => hquery (e ▸ List.mem_cons_self)
    simp [inNetloc, hmark, hhash]

/-- `urlsplit` finds a scheme and an authority exactly in the texts of an absolute URL. -/
theorem urlsplit_iff {url : Str} {r : SplitResult} (hscheme : r.scheme ≠ [])
    (hnetloc : r.netloc ≠ []) : urlsplit url = some r ↔ Absolute url r := by
  constructor
  · intro h
    unfold urlsplit at h
    cases hs : splitScheme url with
    | mk scheme rest =>
    cases hn : splitNetloc rest with
    | mk netloc tail =>
    obtain ⟨text, fragment, htext, hhash, hfragment⟩ := exists_cut hashSign tail
    obtain ⟨path, query, hpath, hmark, hcut⟩ := exists_cut questionMark text
    simp only [hs, hn, hfragment, hcut] at h
    split at h
    · next hbrackets =>
      obtain rfl := Option.some.inj h
      obtain ⟨name, rfl, hname, rfl⟩ := splitScheme_ne_nil hs hscheme
      obtain ⟨rfl, hchars, hstart⟩ := splitNetloc_ne_nil hn hnetloc
      subst hpath htext
      exact .mk hname hchars hbrackets ((path_start hmark hhash).mp hstart) hmark hhash
    · cases h
  · intro h
    obtain ⟨hname, hchars, hbrackets, hpath, hplain, hquery⟩ := h
    unfold urlsplit
    simp only [splitScheme_append hname,
      splitNetloc_append hchars ((path_start hplain hquery).mpr hpath), hbrackets, if_true,
      cut_append hquery, cut_append hplain]

/-! ## The texts of an authority -/

/-- A host as it is written, and the host it names. -/
inductive IsHost : Str → Str → Prop
  | name {text : Str} (hne : text ≠ [])
      (hplain : ∀ c ∈ text, c ≠ colonSign ∧ c ≠ openBracket ∧ c ≠ closeBracket) :
      IsHost text (lowerHost text)
  | literal {text : Str} (hcheck : checkBracketedHost text = true) (hclose : closeBracket ∉ text) :
      IsHost (openBracket :: (text ++ [closeBracket])) (lowerHost text)

/-- A port as it is written behind a host, and its number. -/
inductive IsPort : Str → Option Nat → Prop
  | absent : IsPort [] none
  | empty : IsPort [colonSign] none
  | number {text : Str} {n : Nat} (hne : text ≠ []) (hnumber : portNumber text = some n) :
      IsPort (colonSign :: text) (some n)

theorem portNumber_digits {text : Str} {n : Nat} (h : portNumber text = some n) :
    ∀ c ∈ text, isDigit c = true := by
  unfold portNumber at h
  split at h
  · next hdigits => exact List.all_eq_true.mp hdigits
  · cases h

/-- The characters of a port. -/
theorem IsPort.chars {text : Str} {port : Option Nat} (h : IsPort text port) :
    ∀ c ∈ text, c = colonSign ∨ isDigit c = true := by
  cases h with
  | absent => simp
  | empty => simp
  | number hne hnumber =>
    intro c hc
    rcases List.mem_cons.mp hc with rfl | hc
    · exact .inl rfl
    · exact .inr (portNumber_digits hnumber c hc)

theorem IsPort.notMem {text : Str} {port : Option Nat} (h : IsPort text port) {c : CodePoint}
    (hc : c ≠ colonSign) (hdigit : isDigit c = false) : c ∉ text := by
  intro hm
  rcases h.chars c hm with heq | hd
  · exact hc heq
  · rw [hdigit] at hd
    cases hd

theorem IsPort.inNetloc {text : Str} {port : Option Nat} (h : IsPort text port) :
    ∀ c ∈ text, inNetloc c = true := by
  intro c hc
  have hslash : c ≠ slash := fun e => h.notMem (by decide) (by decide) (e ▸ hc)
  have hmark : c ≠ questionMark := fun e => h.notMem (by decide) (by decide) (e ▸ hc)
  have hhash : c ≠ hashSign := fun e => h.notMem (by decide) (by decide) (e ▸ hc)
  simp [Url.inNetloc, hslash, hmark, hhash]

theorem IsPort.behind_colon {text : Str} {port : Option Nat} (h : IsPort text port) :
    ∃ number, text = onward colonSign number := by
  cases h with
  | absent => exact ⟨none, rfl⟩
  | empty => exact ⟨some [], rfl⟩
  | number hne hnumber => exact ⟨some _, rfl⟩

/-- The text behind a host is read as a port: nothing, or what follows a colon. -/
theorem isPort_iff {text : Option Str} {port : Option Nat} :
    (match text.filter fun s => !s.isEmpty with
      | none => some none
      | some s => (portNumber s).map some) = some port ↔ IsPort (onward colonSign text) port := by
  cases text with
  | none =>
    refine ⟨fun h => Option.some.inj h ▸ .absent, fun h => ?_⟩
    cases h
    rfl
  | some s =>
    cases s with
    | nil =>
      refine ⟨fun h => Option.some.inj h ▸ .empty, fun h => ?_⟩
      cases h with
      | empty => rfl
      | number hne => exact absurd rfl hne
    | cons c s =>
      simp only [Option.filter_some, List.isEmpty_cons, Bool.not_false, if_true, onward_some]
      refine ⟨fun h => ?_, fun h => ?_⟩
      · obtain ⟨n, hn, rfl⟩ := Option.map_eq_some_iff.mp h
        exact .number (List.cons_ne_nil c s) hn
      · cases h with
        | number hne hnumber => rw [hnumber, Option.map_some]

theorem lowerHost_of_notMem {host : Str} (h : percent ∉ host) :
    lowerHost host = Str.lower host := by
  have hcut : cut percent host = (host, none) := cut_iff.mpr ⟨by simp, h⟩
  simp [lowerHost, hcut]

/-- A character that has no other case stays in a host. -/
theorem mem_lowerHost {host : Str} {c : CodePoint} (hc : lowerCodePoint c = c) (h : c ∈ host) :
    c ∈ lowerHost host := by
  obtain ⟨name, zone, rfl, -, hcut⟩ := exists_cut percent host
  unfold lowerHost
  rw [hcut]
  rcases List.mem_append.mp h with h | h
  · exact List.mem_append_left _ (List.mem_map.mpr ⟨c, h, hc⟩)
  · exact List.mem_append_right _ h

theorem hostPart_eq {netloc : Str} (hat : atSign ∉ netloc) : hostPart netloc = netloc :=
  List.rtakeWhile_eq_self_iff.mpr (ne_of_notMem hat)

namespace SplitResult

variable {r : SplitResult}

theorem userinfo_eq_none : r.userinfo = none ↔ atSign ∉ r.netloc := by
  unfold userinfo
  split <;> simp_all

theorem username_eq_none : r.username = none ↔ atSign ∉ r.netloc := by
  rw [username, Option.map_eq_none_iff, userinfo_eq_none]

theorem hostinfo_name {name : Str} {port : Option Str} (hat : atSign ∉ r.netloc)
    (hopen : openBracket ∉ r.netloc) (hnetloc : r.netloc = name ++ onward colonSign port)
    (hcolon : colonSign ∉ name) : r.hostinfo = (name, port.filter fun text => !text.isEmpty) := by
  have hbracket : cut openBracket r.netloc = (r.netloc, none) :=
    cut_iff.mpr ⟨by simp, hopen⟩
  have hport : cut colonSign r.netloc = (name, port) := cut_iff.mpr ⟨hnetloc, hcolon⟩
  simp only [hostinfo, hostPart_eq hat, hbracket, hport]

theorem hostinfo_literal {text : Str} {port : Option Str} (hat : atSign ∉ r.netloc)
    (hnetloc : r.netloc = openBracket :: (text ++ closeBracket :: onward colonSign port))
    (hclose : closeBracket ∉ text) :
    r.hostinfo = (text, port.filter fun text => !text.isEmpty) := by
  have hbracket : cut openBracket r.netloc =
      ([], some (text ++ closeBracket :: onward colonSign port)) :=
    cut_iff.mpr ⟨hnetloc, List.not_mem_nil⟩
  have hhost : cut closeBracket (text ++ closeBracket :: onward colonSign port) =
      (text, some (onward colonSign port)) := cut_iff.mpr ⟨rfl, hclose⟩
  have hport : cut colonSign (onward colonSign port) = ([], port) :=
    cut_iff.mpr ⟨rfl, List.not_mem_nil⟩
  simp only [hostinfo, hostPart_eq hat, hbracket, hhost, Option.getD_some, hport]

theorem netloc_ne_nil {host : Str} (h : r.hostname = some host) : r.netloc ≠ [] := by
  intro hnil
  have hcut : r.hostinfo = ([], none) := by simp [hostinfo, hostPart, hnil, cut]
  simp [hostname, hcut] at h

/-- The host and the port of an authority, given the two texts they are read from. -/
theorem of_hostinfo {text : Str} {port : Option Str}
    (h : r.hostinfo = (text, port.filter fun text => !text.isEmpty)) {host : Str}
    {number : Option Nat} :
    r.hostname = some host ∧ r.port = some number ↔
      text ≠ [] ∧ lowerHost text = host ∧ IsPort (onward colonSign port) number := by
  rw [← isPort_iff]
  unfold hostname SplitResult.port
  rw [h]
  cases text <;> simp

end SplitResult

theorem checkBrackets_none {netloc : Str} (hopen : openBracket ∉ netloc) :
    checkBrackets netloc = true ↔ closeBracket ∉ netloc := by
  unfold checkBrackets
  by_cases hclose : closeBracket ∈ netloc <;> simp [hopen, hclose]

/-- Brackets stand around the whole host, in front of the port. -/
theorem checkBrackets_some {before bracketed : Str}
    (hat : atSign ∉ before ++ openBracket :: bracketed)
    (hbefore : openBracket ∉ before) :
    checkBrackets (before ++ openBracket :: bracketed) = true ↔
      before = [] ∧ ∃ text port, bracketed = text ++ closeBracket :: onward colonSign port ∧
        closeBracket ∉ text ∧ checkBracketedHost text = true := by
  have hcut : cut openBracket (before ++ openBracket :: bracketed) = (before, some bracketed) :=
    cut_iff.mpr ⟨rfl, hbefore⟩
  obtain ⟨text, after, rfl, hclose, hhost⟩ := exists_cut closeBracket bracketed
  unfold checkBrackets checkBracketedNetloc
  rw [hostPart_eq hat, hcut]
  simp only [hhost]
  constructor
  · intro h
    rw [if_pos (by simp)] at h
    simp only [Bool.and_eq_true, decide_eq_true_eq, List.isEmpty_iff, Bool.or_eq_true] at h
    obtain ⟨⟨-, hmem⟩, ⟨rfl, hport⟩, hcheck⟩ := h
    refine ⟨rfl, text, ?_⟩
    cases after with
    | none =>
      have hne : closeBracket ≠ openBracket := by decide
      simp [hne, hclose] at hmem
    | some after =>
      rcases hport with hport | hport
      · rw [Option.getD_some] at hport
        exact ⟨none, by rw [hport, onward_none, onward_some], hclose, hcheck⟩
      · cases after with
        | nil => cases hport
        | cons c after =>
          obtain rfl : c = colonSign := Option.some.inj hport
          exact ⟨some after, rfl, hclose, hcheck⟩
  · rintro ⟨rfl, text', port, heq, hclose', hcheck⟩
    have hsame : (text, after) = (text', some (onward colonSign port)) := by
      rw [← hhost, heq]
      exact cut_iff.mpr ⟨rfl, hclose'⟩
    obtain ⟨rfl, rfl⟩ := Prod.mk.inj hsame
    rw [if_pos (by simp)]
    cases port <;> simp [hcheck]

/-- An authority without user information names a host and a port exactly when it is the text of a
    host and then the text of a port. -/
theorem netloc_iff {r : SplitResult} (hat : atSign ∉ r.netloc) {host : Str} {port : Option Nat} :
    checkBrackets r.netloc = true ∧ r.hostname = some host ∧ r.port = some port ↔
      ∃ h p, r.netloc = h ++ p ∧ IsHost h host ∧ IsPort p port := by
  constructor
  · rintro ⟨hbrackets, hread⟩
    obtain ⟨before, bracketed, hnetloc, hbefore, -⟩ := exists_cut openBracket r.netloc
    cases bracketed with
    | none =>
      rw [onward_none, List.append_nil] at hnetloc
      rw [← hnetloc] at hbefore
      have hclose := (checkBrackets_none hbefore).mp hbrackets
      obtain ⟨name, text, hname, hcolon, -⟩ := exists_cut colonSign r.netloc
      obtain ⟨hne, rfl, hport⟩ :=
        (SplitResult.of_hostinfo (SplitResult.hostinfo_name hat hbefore hname hcolon)).mp hread
      refine ⟨name, onward colonSign text, hname, .name hne fun c hc => ?_, hport⟩
      have hmem : c ∈ r.netloc := hname ▸ List.mem_append_left _ hc
      exact ⟨fun e => hcolon (e ▸ hc), fun e => hbefore (e ▸ hmem), fun e => hclose (e ▸ hmem)⟩
    | some bracketed =>
      rw [onward_some] at hnetloc
      rw [hnetloc, checkBrackets_some (hnetloc ▸ hat) hbefore] at hbrackets
      obtain ⟨rfl, text, number, rfl, hclose, hcheck⟩ := hbrackets
      obtain ⟨-, rfl, hport⟩ :=
        (SplitResult.of_hostinfo (SplitResult.hostinfo_literal hat hnetloc hclose)).mp hread
      exact ⟨_, onward colonSign number, by simp [hnetloc], .literal hcheck hclose, hport⟩
  · rintro ⟨h, p, hnetloc, hhost, hport⟩
    obtain ⟨number, rfl⟩ := hport.behind_colon
    cases hhost with
    | name hne hplain =>
      have hopen : openBracket ∉ r.netloc := by
        rw [hnetloc, List.mem_append, not_or]
        exact ⟨fun hm => (hplain _ hm).2.1 rfl, hport.notMem (by decide) (by decide)⟩
      have hclose : closeBracket ∉ r.netloc := by
        rw [hnetloc, List.mem_append, not_or]
        exact ⟨fun hm => (hplain _ hm).2.2 rfl, hport.notMem (by decide) (by decide)⟩
      have hcolon : colonSign ∉ h := fun hm => (hplain _ hm).1 rfl
      exact ⟨(checkBrackets_none hopen).mpr hclose, (SplitResult.of_hostinfo
        (SplitResult.hostinfo_name hat hopen hnetloc hcolon)).mpr ⟨hne, rfl, hport⟩⟩
    | @literal text hcheck hclose =>
      have hbracketed :
          r.netloc = openBracket :: (text ++ closeBracket :: onward colonSign number) := by
        simp [hnetloc]
      have hne : text ≠ [] := by
        rintro rfl
        cases hcheck
      refine ⟨?_, (SplitResult.of_hostinfo
        (SplitResult.hostinfo_literal hat hbracketed hclose)).mpr ⟨hne, rfl, hport⟩⟩
      rw [hbracketed]
      exact (@checkBrackets_some [] _ (hbracketed ▸ hat) List.not_mem_nil).mpr
        ⟨rfl, text, number, rfl, hclose, hcheck⟩

theorem IsHost.ne_nil {h host : Str} (hhost : IsHost h host) : h ≠ [] := by
  cases hhost with
  | name hne => exact hne
  | literal => exact List.cons_ne_nil _ _

/-- The text of a host and a port is an authority that names them. -/
theorem netloc_spelled {r : SplitResult} {h p host : Str} {port : Option Nat}
    (hr : r.netloc = h ++ p) (hhost : IsHost h host) (hport : IsPort p port)
    (hchars : ∀ c ∈ h, inNetloc c = true ∧ c ≠ atSign) :
    atSign ∉ r.netloc ∧ (∀ c ∈ r.netloc, inNetloc c = true) ∧ checkBrackets r.netloc = true ∧
      r.hostname = some host ∧ r.port = some port := by
  have hat : atSign ∉ r.netloc := by
    rw [hr, List.mem_append, not_or]
    exact ⟨fun hm => (hchars _ hm).2 rfl, hport.notMem (by decide) (by decide)⟩
  refine ⟨hat, fun c hc => ?_, (netloc_iff hat).mpr ⟨h, p, hr, hhost, hport⟩⟩
  rcases List.mem_append.mp (hr ▸ hc) with hc | hc
  · exact (hchars c hc).1
  · exact hport.inNetloc c hc

/-! ## A host and a port alone -/

/-- Nothing but a host and a port was found in the text. -/
structure SplitResult.Bare (r : SplitResult) : Prop where
  username : r.username = none
  password : r.password = none
  path : r.path = []
  query : r.query = []
  fragment : r.fragment = []

/-- The marks of an empty query and an empty fragment. -/
def emptyParts : List Str := [[], [questionMark], [hashSign], [questionMark, hashSign]]

/-- The text of a host and a port, without user information and without any other part. -/
inductive Names : Str → Str → Option Nat → Prop
  | mk {h p tail host : Str} {port : Option Nat} (hhost : IsHost h host) (hport : IsPort p port)
      (hchars : ∀ c ∈ h, inNetloc c = true ∧ c ≠ atSign) (htail : tail ∈ emptyParts) :
      Names (h ++ p ++ tail) host port

theorem mem_emptyParts {query fragment : Option Str} (hquery : query.getD [] = [])
    (hfragment : fragment.getD [] = []) :
    onward questionMark query ++ onward hashSign fragment ∈ emptyParts := by
  cases query <;> cases fragment <;> simp_all [emptyParts]

theorem emptyParts_split {tail : Str} (h : tail ∈ emptyParts) :
    ∃ query fragment : Option Str, tail = onward questionMark query ++ onward hashSign fragment ∧
      query.getD [] = [] ∧ fragment.getD [] = [] := by
  simp only [emptyParts, List.mem_cons, List.not_mem_nil, or_false] at h
  obtain rfl | rfl | rfl | rfl := h
  · exact ⟨none, none, rfl, rfl, rfl⟩
  · exact ⟨some [], none, rfl, rfl, rfl⟩
  · exact ⟨none, some [], rfl, rfl, rfl⟩
  · exact ⟨some [], some [], rfl, rfl, rfl⟩

/-- What `urlsplit` finds to be a bare host and port behind a scheme is spelled so. -/
theorem bare_iff {url scheme host : Str} {port : Option Nat} (hscheme : scheme ≠ []) :
    (∃ r, urlsplit url = some r ∧ r.scheme = scheme ∧ r.Bare ∧ r.hostname = some host ∧
        r.port = some port) ↔
      ∃ name text, url = name ++ colonSign :: slash :: slash :: text ∧ IsScheme name ∧
        Str.lower name = scheme ∧ Names text host port := by
  constructor
  · rintro ⟨r, hsplit, rfl, hbare, hhost, hport⟩
    have hat : atSign ∉ r.netloc := SplitResult.username_eq_none.mp hbare.username
    cases (urlsplit_iff hscheme (SplitResult.netloc_ne_nil hhost)).mp hsplit with
    | @mk name netloc path query fragment hname hchars hbrackets =>
      obtain ⟨h, p, rfl, hh, hp⟩ := (netloc_iff hat).mp ⟨hbrackets, hhost, hport⟩
      obtain rfl : path = [] := hbare.path
      refine ⟨name, h ++ p ++ (onward questionMark query ++ onward hashSign fragment), rfl, hname,
        rfl, .mk hh hp (fun c hc => ?_) (mem_emptyParts hbare.query hbare.fragment)⟩
      exact ⟨hchars c (List.mem_append_left _ hc),
        fun e => hat (List.mem_append_left _ (e ▸ hc))⟩
  · rintro ⟨name, text, rfl, hname, rfl, hnames⟩
    obtain @⟨h, p, tail, _, _, hhost, hport, hchars, htail⟩ := hnames
    obtain ⟨query, fragment, rfl, hquery, hfragment⟩ := emptyParts_split htail
    let r : SplitResult := ⟨Str.lower name, h ++ p, [], query.getD [], fragment.getD []⟩
    obtain ⟨hat, hin, hbrackets, hhostname, hnumber⟩ :=
      netloc_spelled (r := r) rfl hhost hport hchars
    have hnouser : r.userinfo = none := SplitResult.userinfo_eq_none.mpr hat
    have hsplit : Absolute (name ++ colonSign :: slash :: slash ::
        (h ++ p ++ (onward questionMark query ++ onward hashSign fragment))) r :=
      .mk hname hin hbrackets (.inl rfl) List.not_mem_nil (by
        obtain rfl | rfl : query = none ∨ query = some [] := by
          cases query with
          | none => exact .inl rfl
          | some query => exact .inr (congrArg some hquery)
        · exact List.not_mem_nil
        · decide)
    refine ⟨r, (urlsplit_iff hscheme ?_).mpr hsplit, rfl, ?_, hhostname, hnumber⟩
    · exact List.append_ne_nil_of_left_ne_nil hhost.ne_nil p
    · exact ⟨by rw [SplitResult.username, hnouser]; rfl,
        by rw [SplitResult.password, hnouser]; rfl, rfl, hquery, hfragment⟩

/-- A text has one scheme. -/
theorem IsScheme.append_inj {name name' rest rest' : Str} (h : IsScheme name) (h' : IsScheme name')
    (heq : name ++ colonSign :: rest = name' ++ colonSign :: rest') :
    name = name' ∧ rest = rest' := by
  have hcut : (name, some rest) = (name', some rest') := by
    rw [← cut_append h.colon_notMem (some rest), ← cut_append h'.colon_notMem (some rest'),
      onward_some, onward_some, heq]
  obtain ⟨rfl, hrest⟩ := Prod.mk.inj hcut
  exact ⟨rfl, Option.some.inj hrest⟩

/-- The same behind a given scheme. -/
theorem bare_behind {name text host : Str} {port : Option Nat} (hname : IsScheme name) :
    (∃ r, urlsplit (name ++ colonSign :: slash :: slash :: text) = some r ∧ r.Bare ∧
        r.hostname = some host ∧ r.port = some port) ↔ Names text host port := by
  have hne : Str.lower name ≠ [] := by simpa [Str.lower] using hname.ne_nil
  constructor
  · rintro ⟨r, hsplit, hbare, hhost, hport⟩
    have hscheme : r.scheme = Str.lower name := by
      unfold urlsplit at hsplit
      rw [splitScheme_append hname] at hsplit
      dsimp only at hsplit
      split at hsplit
      · exact (Option.some.inj hsplit).symm ▸ rfl
      · cases hsplit
    obtain ⟨name', text', heq, hname', -, hnames⟩ :=
      (bare_iff hne).mp ⟨r, hsplit, hscheme, hbare, hhost, hport⟩
    obtain ⟨-, hrest⟩ := hname.append_inj hname' heq
    obtain rfl : text = text' := by simpa using hrest
    exact hnames
  · intro hnames
    obtain ⟨r, hsplit, -, hbare, hhost, hport⟩ :=
      (bare_iff hne).mpr ⟨name, text, rfl, hname, rfl, hnames⟩
    exact ⟨r, hsplit, hbare, hhost, hport⟩

/-- A text names one host and one port. -/
theorem Names.unique {text host host' : Str} {port port' : Option Nat} (h : Names text host port)
    (h' : Names text host' port') : host = host' ∧ port = port' := by
  have hname : IsScheme (Str.lit "x") := ⟨by decide, by decide⟩
  obtain ⟨r, hsplit, -, hhost, hport⟩ := (bare_behind hname).mpr h
  obtain ⟨r', hsplit', -, hhost', hport'⟩ := (bare_behind hname).mpr h'
  obtain rfl := Option.some.inj (hsplit.symm.trans hsplit')
  exact ⟨Option.some.inj (hhost.symm.trans hhost'), Option.some.inj (hport.symm.trans hport')⟩

theorem isLetter_of_lower {c : CodePoint} (h : isLetter (lowerCodePoint c) = true) :
    isLetter c = true := by
  unfold lowerCodePoint at h
  split at h
  · next hupper => simp [isLetter, hupper]
  · exact h

/-- What is a word of letters in lower case is a scheme. -/
theorem IsScheme.of_lower {name scheme : Str} (h : Str.lower name = scheme) (hne : scheme ≠ [])
    (hletters : scheme.all isLetter = true) : IsScheme name := by
  subst h
  have hall : ∀ c ∈ name, isLetter c = true := fun c hc =>
    isLetter_of_lower (List.all_eq_true.mp hletters _ (List.mem_map_of_mem hc))
  refine ⟨?_, List.all_eq_true.mpr fun c hc => by simp [isSchemeChar, hall c hc]⟩
  cases name with
  | nil => exact absurd rfl hne
  | cons c name => exact hall c List.mem_cons_self

end Python.Url

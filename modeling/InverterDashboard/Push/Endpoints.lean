import InverterDashboard.Push.Registrations
import InverterDashboard.Push.Lifetime
import InverterDashboard.Python.Url

/-
  Where the service sends: `endpoint_host` with all that `urlsplit` does.

  `endpointHost_iff` says which texts are endpoints, and `acceptsEndpoint_iff` that the shorter
  parser of the other modules accepts the same ones. A life of the service, whatever it was given,
  sends to such texts only (`sends_provided`).
-/

namespace InverterDashboard.Push

open Python Cerbo Bounded Temporal

def https : Str := Str.lit "https"

/-- What `endpoint_host` refuses in a text before it splits it. -/
def isUnsafeText (endpoint : Str) : Bool :=
  2048 < endpoint.length || endpoint.any (fun c => c.val ≤ 32 || 127 ≤ c.val) ||
    char '\\' ∈ endpoint

/-- `endpoint_host`; `none` when it raises. -/
def endpointHost (endpoint : Str) : Option Str :=
  if isUnsafeText endpoint then none
  else match Url.urlsplit endpoint with
    | none => none
    | some parts =>
      match parts.hostname, parts.port with
      | some host, some port =>
        if parts.username.isSome || parts.password.isSome then none
        else if parts.scheme ≠ https || (port ≠ none && port ≠ some 443) ||
            !(Str.lit "/").isPrefixOf parts.path || !parts.fragment.isEmpty ||
              (Str.lit ".").isSuffixOf host then none
        else if isPushHost host then some host
        else none
      | _, _ => none

/-- The text of an endpoint, and the provider it names. -/
inductive IsEndpoint : Str → Str → Prop
  | mk {written h p path host : Str} {port : Option Nat} {query fragment : Option Str}
      (hscheme : Str.lower written = https) (hhost : Url.IsHost h host) (hport : Url.IsPort p port)
      (h443 : port = none ∨ port = some 443)
      (hchars : ∀ c ∈ h, Url.inNetloc c = true ∧ c ≠ Url.atSign) (hpush : isPushHost host = true)
      (hpath : path.head? = some slash) (hplain : Url.questionMark ∉ path)
      (hquery : Url.hashSign ∉ path ++ Url.onward Url.questionMark query)
      (hfragment : fragment.getD [] = []) :
      IsEndpoint (written ++ Url.colonSign :: slash :: slash :: (h ++ p ++
          (path ++ Url.onward Url.questionMark query ++ Url.onward Url.hashSign fragment))) host

/-! ## What `endpoint_host` accepts -/

theorem isPrefixOf_slash {path : Str} :
    (Str.lit "/").isPrefixOf path = true ↔ path.head? = some slash := by
  rw [List.isPrefixOf_iff_prefix, show Str.lit "/" = [slash] from rfl]
  cases path with
  | nil => simp
  | cons c path =>
    rw [List.cons_prefix_cons, List.head?_cons, Option.some.injEq]
    exact ⟨fun h => h.1.symm, fun h => ⟨h.symm, List.nil_prefix⟩⟩

/-- No provider's name ends in a dot. -/
theorem isPushHost_last {host : Str} (h : isPushHost host = true) :
    (Str.lit ".").isSuffixOf host = false := by
  rw [isPushHost, Bool.or_eq_true, decide_eq_true_eq, List.any_eq_true] at h
  obtain hexact | ⟨suffix, hsuffix, h⟩ := h
  · simp only [exactPushHosts, List.mem_cons, List.not_mem_nil, or_false] at hexact
    obtain rfl | rfl := hexact <;> decide
  · rw [Bool.and_eq_true, List.isSuffixOf_iff_suffix] at h
    obtain ⟨front, rfl⟩ := h.1
    rw [Bool.eq_false_iff, ne_eq, List.isSuffixOf_iff_suffix]
    intro hdot
    have hboth : Str.lit "." <:+ suffix := by
      refine List.suffix_of_suffix_length_le hdot (List.suffix_append front suffix) ?_
      simp only [pushSuffixes, List.mem_cons, List.not_mem_nil, or_false] at hsuffix
      obtain rfl | rfl := hsuffix <;> decide
    simp only [pushSuffixes, List.mem_cons, List.not_mem_nil, or_false] at hsuffix
    rw [← List.isSuffixOf_iff_suffix] at hboth
    obtain rfl | rfl := hsuffix
    · exact absurd hboth (by decide)
    · exact absurd hboth (by decide)

theorem isScheme_https {written : Str} (h : Str.lower written = https) : Url.IsScheme written :=
  .of_lower h (by decide) (by decide)

/-- **The texts of endpoints.** -/
theorem endpointHost_iff {endpoint host : Str} :
    endpointHost endpoint = some host ↔
      isUnsafeText endpoint = false ∧ IsEndpoint endpoint host := by
  unfold endpointHost
  cases hsafe : isUnsafeText endpoint with
  | true => simp
  | false =>
    simp only [Bool.false_eq_true, if_false, true_and]
    constructor
    · intro h
      split at h
      · cases h
      · next parts hsplit =>
        split at h
        · next found port hhost hport =>
          split at h
          · cases h
          · next huser =>
            split at h
            · cases h
            · next hparts =>
              split at h
              · next hpush =>
                obtain rfl := Option.some.inj h
                simp only [Bool.or_eq_true, not_or, Bool.not_eq_true, Option.isSome_eq_false_iff,
                  Option.isNone_iff_eq_none, decide_eq_true_eq, not_not, Bool.and_eq_true,
                  not_and, Bool.not_eq_false', List.isEmpty_iff, isPrefixOf_slash] at huser hparts
                obtain ⟨⟨⟨⟨hscheme, h443⟩, hpath⟩, hfragment⟩, -⟩ := hparts
                have hat := Url.SplitResult.username_eq_none.mp huser.1
                have hne : parts.scheme ≠ [] := hscheme ▸ by decide
                cases (Url.urlsplit_iff hne (Url.SplitResult.netloc_ne_nil hhost)).mp hsplit with
                | @mk written netloc path query fragment hwritten hnetloc hbrackets hstart hmark
                    hhash =>
                  obtain ⟨h, p, rfl, hh, hp⟩ := (Url.netloc_iff hat).mp ⟨hbrackets, hhost, hport⟩
                  exact .mk hscheme hh hp (Classical.or_iff_not_imp_left.mpr h443) (fun c hc =>
                    ⟨hnetloc c (List.mem_append_left p hc),
                      fun e => hat (List.mem_append_left p (e ▸ hc))⟩) hpush hpath hmark hhash
                    hfragment
              · cases h
        · cases h
    · intro h
      cases h with
      | @mk written h p path _ port query fragment hscheme hhost hport h443 hchars hpush hpath hmark
          hhash hfragment =>
        obtain ⟨r, hr⟩ : ∃ r : Url.SplitResult,
            r = ⟨Str.lower written, h ++ p, path, query.getD [], fragment.getD []⟩ := ⟨_, rfl⟩
        have hrscheme : r.scheme = https := hr ▸ hscheme
        have hrpath : r.path.head? = some slash := hr ▸ hpath
        have hrfragment : r.fragment = [] := hr ▸ hfragment
        obtain ⟨hat, hin, hbrackets, hname, hnumber⟩ :=
          @Url.netloc_spelled r _ _ _ _ (hr ▸ rfl) hhost hport hchars
        have habsolute : Url.Absolute (written ++ Url.colonSign :: slash :: slash :: (h ++ p ++
            (path ++ Url.onward Url.questionMark query ++ Url.onward Url.hashSign fragment))) r := by
          rw [hr] at hin hbrackets ⊢
          exact .mk (isScheme_https hscheme) hin hbrackets (.inr hpath) hmark hhash
        have hsplit := (Url.urlsplit_iff (hrscheme ▸ by decide)
          (Url.SplitResult.netloc_ne_nil hname)).mpr habsolute
        have huser : r.userinfo = none := Url.SplitResult.userinfo_eq_none.mpr hat
        rw [hsplit]
        dsimp only
        rw [hname, hnumber]
        dsimp only
        rw [if_neg (by simp [Url.SplitResult.username, Url.SplitResult.password, huser]),
          if_neg (by simpa [hrscheme, isPrefixOf_slash.mpr hrpath, hrfragment,
            isPushHost_last hpush] using h443.resolve_left), if_pos hpush]

/-! ## The shorter parser -/

/-- What the shorter `urlsplit` finds, behind the first colon of a text. -/
theorem urlsplit_spelled {written netloc path : Str} {query fragment : Option Str}
    (hcolon : Url.colonSign ∉ written) (hnetloc : ∀ c ∈ netloc, Url.inNetloc c = true)
    (hpath : path = [] ∨ path.head? = some slash) (hplain : Url.questionMark ∉ path)
    (hquery : Url.hashSign ∉ path ++ Url.onward Url.questionMark query) :
    urlsplit (written ++ Url.colonSign :: slash :: slash :: (netloc ++
        (path ++ Url.onward Url.questionMark query ++ Url.onward Url.hashSign fragment))) =
      some ⟨Str.lower written, netloc, path, fragment.getD []⟩ := by
  obtain ⟨tail, htail⟩ : ∃ tail,
      tail = path ++ Url.onward Url.questionMark query ++ Url.onward Url.hashSign fragment := ⟨_, rfl⟩
  have hstart : ∀ c ∈ tail.head?, Url.inNetloc c = false :=
    htail ▸ (Url.path_start hplain hquery).mpr hpath
  obtain ⟨hname, hrest⟩ := Url.span_append (p := fun c => decide (c ≠ Url.colonSign))
    (b := Url.colonSign :: slash :: slash :: (netloc ++ tail)) (Url.ne_of_notMem hcolon) (by simp)
  obtain ⟨hauthority, hafter⟩ := Url.span_append hnetloc hstart
  -- The path ends at the first mark of a query or a fragment.
  have hmarks : ∀ c ∈ path, decide (c ≠ Url.questionMark ∧ c ≠ Url.hashSign) = true := by
    intro c hc
    have hmark : c ≠ Url.questionMark := fun e => hplain (e ▸ hc)
    have hhash : c ≠ Url.hashSign := fun e => hquery (List.mem_append_left _ (e ▸ hc))
    simp [hmark, hhash]
  have hend : ∀ c ∈ (Url.onward Url.questionMark query ++ Url.onward Url.hashSign fragment).head?,
      decide (c ≠ Url.questionMark ∧ c ≠ Url.hashSign) = false := by
    cases query <;> cases fragment <;> simp
  have hpathtext := (Url.span_append hmarks hend).1
  rw [← List.append_assoc, ← htail] at hpathtext
  have hfragment :
      (tail.dropWhile fun c => decide (c ≠ Url.hashSign)).drop 1 = fragment.getD [] := by
    have hstop : ∀ c ∈ (Url.onward Url.hashSign fragment).head?,
        decide (c ≠ Url.hashSign) = false := by
      cases fragment <;> simp
    rw [htail, (Url.span_append (Url.ne_of_notMem hquery) hstop).2]
    cases fragment <;> rfl
  rw [← htail]
  unfold urlsplit
  rw [show (written ++ Url.colonSign :: slash :: slash :: (netloc ++ tail)).dropWhile (· ≠ char ':') =
    Url.colonSign :: slash :: slash :: (netloc ++ tail) from hrest]
  dsimp only
  rw [if_pos ⟨rfl, rfl, rfl⟩, Option.some.injEq, UrlParts.mk.injEq]
  refine ⟨congrArg Str.lower hname, hauthority, ?_, ?_⟩
  · exact (congrArg (List.takeWhile _) hafter).trans hpathtext
  · exact (congrArg (fun s => (List.dropWhile _ s).drop 1) hafter).trans hfragment

theorem urlsplit_some {url : Str} {parts : UrlParts} (h : urlsplit url = some parts) :
    ∃ (written netloc path : Str) (query fragment : Option Str),
      url = written ++ Url.colonSign :: slash :: slash :: (netloc ++
        (path ++ Url.onward Url.questionMark query ++ Url.onward Url.hashSign fragment)) ∧
      (∀ c ∈ netloc, Url.inNetloc c = true) ∧ (path = [] ∨ path.head? = some slash) ∧
      Url.questionMark ∉ path ∧ Url.hashSign ∉ path ++ Url.onward Url.questionMark query ∧
      parts = ⟨Str.lower written, netloc, path, fragment.getD []⟩ := by
  obtain ⟨written, rest, rfl, hcolon, -⟩ := Url.exists_cut Url.colonSign url
  obtain ⟨text, rfl⟩ : ∃ text, rest = some (slash :: slash :: text) := by
    have hstop : ∀ c ∈ (Url.onward Url.colonSign rest).head?,
        decide (c ≠ Url.colonSign) = false := by
      cases rest <;> simp
    have hdrop := (Url.span_append (Url.ne_of_notMem hcolon) hstop).2
    unfold urlsplit at h
    rw [show (written ++ Url.onward Url.colonSign rest).dropWhile (· ≠ char ':') = _ from hdrop] at h
    split at h
    · next first second third text hrest =>
      split at h
      · next hmarks =>
        obtain ⟨rfl, rfl, rfl⟩ := hmarks
        cases rest with
        | none => cases hrest
        | some rest => exact ⟨text, congrArg some (List.cons.inj hrest).2⟩
      · cases h
    · cases h
  have hsplit := List.takeWhile_append_dropWhile (p := Url.inNetloc) (l := text)
  obtain ⟨front, fragment, hfront, hhash, -⟩ :=
    Url.exists_cut Url.hashSign (text.dropWhile Url.inNetloc)
  obtain ⟨path, query, rfl, hmark, -⟩ := Url.exists_cut Url.questionMark front
  have hnetloc : ∀ c ∈ text.takeWhile Url.inNetloc, Url.inNetloc c = true :=
    fun c => List.mem_takeWhile_imp
  have hstart : path = [] ∨ path.head? = some slash := by
    refine (@Url.path_start path query fragment hmark hhash).mp fun c hc => ?_
    have hhead := List.head?_dropWhile_not (p := Url.inNetloc) (l := text)
    rw [hfront, Option.mem_def.mp hc] at hhead
    simpa using hhead
  have hurl : written ++ Url.onward Url.colonSign (some (slash :: slash :: text)) =
      written ++ Url.colonSign :: slash :: slash :: (text.takeWhile Url.inNetloc ++
        (path ++ Url.onward Url.questionMark query ++ Url.onward Url.hashSign fragment)) := by
    rw [← hfront, hsplit, Url.onward_some]
  rw [hurl, urlsplit_spelled hcolon hnetloc hstart hmark hhash] at h
  exact ⟨written, text.takeWhile Url.inNetloc, path, query, fragment, hurl, hnetloc, hstart, hmark,
    hhash, (Option.some.inj h).symm⟩

theorem partition_eq (sep : CodePoint) (s : Str) :
    partition sep s = ((Url.cut sep s).1, (Url.cut sep s).2.getD []) := by
  obtain ⟨a, b, rfl, ha, hcut⟩ := Url.exists_cut sep s
  have hstop : ∀ c ∈ (Url.onward sep b).head?, decide (c ≠ sep) = false := by
    cases b <;> simp
  obtain ⟨htake, hdrop⟩ := Url.span_append (Url.ne_of_notMem ha) hstop
  unfold partition
  rw [hcut, htake, hdrop]
  cases b <;> rfl

theorem isHttpsPort_iff {text : Option Str} :
    isHttpsPort (text.getD []) = true ↔
      ∃ port, Url.IsPort (Url.onward Url.colonSign text) port ∧
        (port = none ∨ port = some 443) := by
  cases text with
  | none => exact ⟨fun _ => ⟨none, .absent, .inl rfl⟩, fun _ => rfl⟩
  | some text =>
    cases text with
    | nil => exact ⟨fun _ => ⟨none, .empty, .inl rfl⟩, fun _ => rfl⟩
    | cons c text =>
      rw [Option.getD_some, isHttpsPort, List.isEmpty_cons, Bool.false_or, Bool.and_eq_true,
        decide_eq_true_eq]
      constructor
      · rintro ⟨hdigits, hnumber⟩
        have hall : (c :: text).all Url.isDigit = true := hdigits
        have hport : Url.portNumber (c :: text) = some 443 := by
          rw [Url.portNumber, if_pos hall, hnumber]
          rfl
        exact ⟨some 443, .number (List.cons_ne_nil c text) hport, .inr rfl⟩
      · rintro ⟨port, hport, h443⟩
        cases hport with
        | @number _ n hne hnumber =>
          obtain rfl : n = 443 := by simpa using h443
          unfold Url.portNumber at hnumber
          split at hnumber
          · next hdigits => exact ⟨hdigits, (Option.filter_eq_some_iff.mp hnumber).1⟩
          · cases hnumber

theorem mem_of_splitOn {sep c : CodePoint} {s : Str} (h : c ∈ s) :
    c = sep ∨ ∃ part ∈ s.splitOn sep, c ∈ part := by
  induction s with
  | nil => cases h
  | cons x s ih =>
    rw [List.splitOn_cons_eq_if_modifyHead]
    by_cases hx : (x == sep) = true
    · rw [if_pos hx]
      rcases List.mem_cons.mp h with rfl | h
      · exact .inl (by simpa using hx)
      · exact (ih h).imp_right fun ⟨part, hpart, hc⟩ => ⟨part, List.mem_cons_of_mem _ hpart, hc⟩
    · rw [if_neg hx]
      obtain ⟨first, parts, hparts⟩ := List.exists_cons_of_ne_nil (List.splitOn_ne_nil sep s)
      rw [hparts] at ih ⊢
      rcases List.mem_cons.mp h with rfl | h
      · exact .inr ⟨c :: first, List.mem_cons_self, List.mem_cons_self⟩
      · refine (ih h).imp_right fun ⟨part, hpart, hc⟩ => ?_
        rcases List.mem_cons.mp hpart with rfl | hpart
        · exact ⟨x :: part, List.mem_cons_self, List.mem_cons_of_mem _ hc⟩
        · exact ⟨part, List.mem_cons_of_mem _ hpart, hc⟩

/-- A provider's name has neither the colon of an address nor the mark of a zone. -/
theorem isPushHost_plain {host : Str} (h : isPushHost host = true) :
    Url.colonSign ∉ host ∧ Url.percent ∉ host := by
  rw [isPushHost, Bool.or_eq_true, decide_eq_true_eq, List.any_eq_true] at h
  obtain hexact | ⟨suffix, hsuffix, h⟩ := h
  · simp only [exactPushHosts, List.mem_cons, List.not_mem_nil, or_false] at hexact
    obtain rfl | rfl := hexact <;> decide
  · rw [Bool.and_eq_true, List.isSuffixOf_iff_suffix] at h
    obtain ⟨⟨front, rfl⟩, hfront⟩ := h
    rw [List.length_append, Nat.add_sub_cancel, List.take_left, isHostPrefix,
      List.all_eq_true] at hfront
    have hlabel : ∀ c ∈ front, c = char '.' ∨ isLabelChar c = true := by
      intro c hc
      refine (mem_of_splitOn hc).imp_right fun ⟨part, hpart, hmem⟩ => ?_
      have hpart := hfront part hpart
      rw [Bool.and_eq_true, List.all_eq_true] at hpart
      exact hpart.2 c hmem
    have hplain : Url.colonSign ∉ suffix ∧ Url.percent ∉ suffix := by
      simp only [pushSuffixes, List.mem_cons, List.not_mem_nil, or_false] at hsuffix
      obtain rfl | rfl := hsuffix <;> decide
    refine ⟨fun hmem => ?_, fun hmem => ?_⟩
    · rcases List.mem_append.mp hmem with hmem | hmem
      · exact absurd (hlabel _ hmem) (by decide)
      · exact hplain.1 hmem
    · rcases List.mem_append.mp hmem with hmem | hmem
      · exact absurd (hlabel _ hmem) (by decide)
      · exact hplain.2 hmem

theorem isHexDigit_eq : isHexDigit = Url.isHexDigit := by
  funext c
  simp only [isHexDigit, Url.isHexDigit, Url.isDigit, decide_eq_true_eq, decide_eq_decide]
  tauto

/-- An address is not the name of a provider. -/
theorem checkBracketedHost_push {text : Str} (hpush : isPushHost (Url.lowerHost text) = true) :
    Url.checkBracketedHost text = true ↔ isFutureAddress text = true := by
  cases text with
  | nil => simp [Url.checkBracketedHost, isFutureAddress]
  | cons v rest =>
    have hipv6 : Url.isIPv6 (v :: rest) = false := by
      rw [Bool.eq_false_iff]
      intro h
      exact (isPushHost_plain hpush).1
        (Url.mem_lowerHost (by decide) (Url.colon_mem_of_isIPv6 h))
    unfold Url.checkBracketedHost isFutureAddress
    rw [isHexDigit_eq]
    dsimp only
    by_cases hv : v = CodePoint.ofChar 'v'
    · rw [if_pos hv]
      rcases rest.dropWhile Url.isHexDigit with _ | ⟨c, _ | ⟨_, _⟩⟩
      · rfl
      · rfl
      · simp only [char, Url.dot, hv, decide_true, Bool.true_and]
        exact Iff.rfl
    · rw [if_neg hv, hipv6]
      rcases rest.dropWhile Url.isHexDigit with _ | ⟨c, _ | ⟨_, _⟩⟩
      · simp
      · simp
      · simp [char, hv]

/-- The host and the port of an authority with a provider's name. -/
theorem hostinfo_iff {netloc host : Str} (hat : Url.atSign ∉ netloc)
    (hpush : isPushHost host = true) :
    (∃ port, hostinfo netloc = some (host, port) ∧ isHttpsPort port = true) ↔
      ∃ h p port, netloc = h ++ p ∧ Url.IsHost h host ∧ Url.IsPort p port ∧
        (port = none ∨ port = some 443) := by
  have hopen : char '[' = Url.openBracket := rfl
  have hclosed : char ']' = Url.closeBracket := rfl
  have hcolon : char ':' = Url.colonSign := rfl
  have hnil : host ≠ [] := by
    rintro rfl
    revert hpush
    decide
  have hlower : ∀ text : Str, Str.lower text = host → Url.lowerHost text = host := by
    rintro text rfl
    refine Url.lowerHost_of_notMem fun hm => (isPushHost_plain hpush).2 ?_
    exact List.mem_map.mpr ⟨Url.percent, hm, by decide⟩
  unfold hostinfo
  rw [hopen, hclosed, hcolon]
  constructor
  · rintro ⟨port, h, hport⟩
    split at h
    · next hbracket =>
      split at h
      · cases h
      · next first rest =>
        obtain ⟨text, after, rfl, hclose, hcut⟩ := Url.exists_cut Url.closeBracket rest
        rw [partition_eq, hcut] at h
        dsimp only at h
        split at h
        · next hfuture =>
          obtain ⟨rfl, hmem, hcheck, hafter⟩ := hfuture
          obtain ⟨rfl, rfl⟩ := Prod.mk.inj (Option.some.inj h)
          have hhost := hlower text rfl
          rw [← hhost] at hpush
          cases after with
          | none => simp [hclose] at hmem
          | some after =>
            obtain ⟨number, rfl⟩ : ∃ number, after = Url.onward Url.colonSign number := by
              rcases hafter with hafter | hafter
              · exact ⟨none, hafter⟩
              · cases after with
                | nil => cases hafter
                | cons c after => exact ⟨some after, by rw [Option.some.inj hafter]; rfl⟩
            have hdrop : (Url.onward Url.colonSign number).drop 1 = number.getD [] := by
              cases number <;> rfl
            rw [Option.getD_some, hdrop] at hport
            obtain ⟨found, hport, h443⟩ := isHttpsPort_iff.mp hport
            refine ⟨Url.openBracket :: (text ++ [Url.closeBracket]), _, found, by simp, ?_, hport,
              h443⟩
            exact hhost ▸ .literal ((checkBracketedHost_push hpush).mpr hcheck) hclose
        · cases h
    · next hbracket =>
      rw [not_or] at hbracket
      obtain ⟨name, text, rfl, hname, hcut⟩ := Url.exists_cut Url.colonSign netloc
      rw [partition_eq, hcut] at h
      obtain ⟨rfl, rfl⟩ := Prod.mk.inj (Option.some.inj h)
      obtain ⟨found, hport, h443⟩ := isHttpsPort_iff.mp hport
      refine ⟨name, _, found, rfl, hlower name rfl ▸ .name ?_ fun c hc => ?_, hport, h443⟩
      · rintro rfl
        exact hnil rfl
      · have hmem := List.mem_append_left (Url.onward Url.colonSign text) hc
        exact ⟨fun e => hname (e ▸ hc), fun e => hbracket.1 (e ▸ hmem),
          fun e => hbracket.2 (e ▸ hmem)⟩
  · rintro ⟨h, p, port, rfl, hhost, hport, h443⟩
    have hnone : Url.openBracket ∉ p ∧ Url.closeBracket ∉ p :=
      ⟨hport.notMem (by decide) (by decide), hport.notMem (by decide) (by decide)⟩
    obtain ⟨text, rfl⟩ := hport.behind_colon
    refine ⟨text.getD [], ?_, isHttpsPort_iff.mpr ⟨port, hport, h443⟩⟩
    cases hhost with
    | name hne hplain =>
      have hbracket : ¬ (Url.openBracket ∈ h ++ Url.onward Url.colonSign text ∨
          Url.closeBracket ∈ h ++ Url.onward Url.colonSign text) := by
        simp only [List.mem_append, not_or]
        exact ⟨⟨fun hm => (hplain _ hm).2.1 rfl, hnone.1⟩, fun hm => (hplain _ hm).2.2 rfl, hnone.2⟩
      have hcut : Url.cut Url.colonSign (h ++ Url.onward Url.colonSign text) = (h, text) :=
        Url.cut_append (fun hm => (hplain _ hm).1 rfl) text
      have hpercent : Url.percent ∉ h := fun hm =>
        (isPushHost_plain hpush).2 (Url.mem_lowerHost (by decide) hm)
      rw [if_neg hbracket, partition_eq, hcut, Url.lowerHost_of_notMem hpercent]
    | @literal inner hcheck hclose =>
      have hcut : Url.cut Url.closeBracket
          (inner ++ [Url.closeBracket] ++ Url.onward Url.colonSign text) =
          (inner, some (Url.onward Url.colonSign text)) :=
        Url.cut_iff.mpr ⟨by simp, hclose⟩
      have hpercent : Url.percent ∉ inner := fun hm =>
        (isPushHost_plain hpush).2 (Url.mem_lowerHost (by decide) hm)
      have hafter : Url.onward Url.colonSign text = [] ∨
          (Url.onward Url.colonSign text).head? = some Url.colonSign := by
        cases text with
        | none => exact .inl rfl
        | some text => exact .inr rfl
      have hdrop : (Url.onward Url.colonSign text).drop 1 = text.getD [] := by
        cases text <;> rfl
      rw [List.cons_append, if_pos (.inl List.mem_cons_self)]
      dsimp only
      rw [partition_eq, hcut]
      dsimp only
      rw [if_pos ⟨rfl, by simp, (checkBracketedHost_push hpush).mp hcheck, hafter⟩,
        Option.getD_some, hdrop, Url.lowerHost_of_notMem hpercent]

/-- `acceptsEndpoint` in terms of what its parser finds. -/
theorem acceptsEndpoint_split {endpoint : Str} :
    acceptsEndpoint endpoint = true ↔ isUnsafeText endpoint = false ∧
      ∃ parts host port, urlsplit endpoint = some parts ∧ Url.atSign ∉ parts.netloc ∧
        hostinfo parts.netloc = some (host, port) ∧ parts.scheme = https ∧ host ≠ [] ∧
        isHttpsPort port = true ∧ parts.path.head? = some slash ∧ parts.fragment = [] ∧
        host.getLast? ≠ some (char '.') ∧ isPushHost host = true := by
  constructor
  · intro h
    unfold acceptsEndpoint at h
    split at h
    · cases h
    · next hsafe =>
      split at h
      · cases h
      · next parts hsplit =>
        split at h
        · cases h
        · next hat =>
          split at h
          · cases h
          · next host port hinfo =>
            simp only [Bool.and_eq_true, decide_eq_true_eq, isPrefixOf_slash, List.isEmpty_iff,
              Bool.not_eq_true', List.isEmpty_eq_false_iff] at h
            obtain ⟨⟨⟨⟨⟨⟨hscheme, hne⟩, hport⟩, hpath⟩, hfragment⟩, hlast⟩, hpush⟩ := h
            exact ⟨Bool.eq_false_iff.mpr hsafe, parts, host, port, hsplit, hat, hinfo, hscheme, hne,
              hport, hpath, hfragment, hlast, hpush⟩
  · rintro ⟨hsafe, parts, host, port, hsplit, hat, hinfo, hscheme, hne, hport, hpath, hfragment,
      hlast, hpush⟩
    unfold isUnsafeText at hsafe
    unfold acceptsEndpoint
    rw [hsafe, if_neg Bool.false_ne_true, hsplit]
    dsimp only
    have hmark : char '@' ∉ parts.netloc := hat
    have hscheme : parts.scheme = Str.lit "https" := hscheme
    rw [if_neg hmark, hinfo]
    simp [hscheme, hne, hport, isPrefixOf_slash.mpr hpath, hfragment, hlast, hpush]

/-- **The two parsers agree.** What the other modules accept as an endpoint is what `endpoint_host`
    returns a host for. -/
theorem acceptsEndpoint_iff {endpoint : Str} :
    acceptsEndpoint endpoint = true ↔ ∃ host, endpointHost endpoint = some host := by
  simp only [endpointHost_iff]
  rw [acceptsEndpoint_split]
  constructor
  · rintro ⟨hsafe, parts, host, number, hsplit, hat, hinfo, hscheme, -, hport, hpath, hfragment, -,
      hpush⟩
    obtain ⟨written, netloc, path, query, fragment, rfl, hchars, -, hmark, hhash, rfl⟩ :=
      urlsplit_some hsplit
    obtain ⟨text, p, port, rfl, hhost, hport, h443⟩ :=
      (hostinfo_iff hat hpush).mp ⟨number, hinfo, hport⟩
    exact ⟨host, hsafe, .mk hscheme hhost hport h443 (fun c hc =>
      ⟨hchars c (List.mem_append_left p hc), fun e => hat (List.mem_append_left p (e ▸ hc))⟩)
      hpush hpath hmark hhash hfragment⟩
  · rintro ⟨host, hsafe, hendpoint⟩
    refine ⟨hsafe, ?_⟩
    cases hendpoint with
    | @mk written text p path _ port query fragment hscheme hhost hport h443 hchars hpush hpath
        hmark hhash hfragment =>
      obtain ⟨r, hr⟩ : ∃ r : Url.SplitResult,
          r = ⟨Str.lower written, text ++ p, path, query.getD [], fragment.getD []⟩ := ⟨_, rfl⟩
      have hnetloc : r.netloc = text ++ p := hr ▸ rfl
      obtain ⟨hat, hin, -⟩ := Url.netloc_spelled hnetloc hhost hport hchars
      rw [hnetloc] at hat hin
      obtain ⟨number, hinfo, hhttps⟩ :=
        (hostinfo_iff hat hpush).mpr ⟨text, p, port, rfl, hhost, hport, h443⟩
      have hne : host ≠ [] := by
        rintro rfl
        revert hpush
        decide
      have hlast : host.getLast? ≠ some (char '.') := by
        intro hlast
        have hdot := isPushHost_last hpush
        obtain ⟨front, rfl⟩ := List.getLast?_eq_some_iff.mp hlast
        rw [Bool.eq_false_iff, ne_eq, List.isSuffixOf_iff_suffix] at hdot
        exact hdot (List.suffix_append front _)
      exact ⟨_, host, number,
        urlsplit_spelled (isScheme_https hscheme).colon_notMem hin (.inr hpath) hmark hhash, hat,
        hinfo, hscheme, hne, hhttps, hpath, hfragment, hlast, hpush⟩

/-! ## Where the service sends -/

/-- Each registered endpoint is one. -/
def Provided (t : PushStore) : Prop :=
  ∀ r ∈ t.subscriptions, acceptsEndpoint r.subscription.endpoint = true

theorem provided_upsert {t : PushStore} (h : Provided t) {subscription : Subscription}
    (haccepts : acceptsEndpoint subscription.endpoint = true) (identifier : Str)
    (preferences : Preferences) (now : ℚ) :
    Provided (t.registered identifier subscription preferences now) := by
  intro r hr
  unfold PushStore.registered PushStore.upsert at hr
  dsimp only at hr
  split at hr
  · obtain ⟨row, hrow, rfl⟩ := List.mem_map.mp hr
    split
    · exact haccepts
    · exact h row hrow
  · rcases List.mem_append.mp hr with hr | hr
    · exact h r hr
    · rw [List.mem_singleton.mp hr]
      exact haccepts

theorem provided_storeStep {t : PushStore} (h : Provided t) {call : StoreOp}
    (hregister : ∀ subscription preferences now, call = .register subscription preferences now →
      acceptsEndpoint subscription.endpoint = true) : Provided (storeStep t call) := by
  cases hwrites : writesSubscriptions call with
  | false =>
    unfold Provided
    rw [storeStep_subscriptions t hwrites]
    exact h
  | true =>
    cases call with
    | register subscription preferences now =>
      unfold storeStep
      dsimp only
      cases hreg : t.register subscription preferences now with
      | error e => exact h
      | ok o =>
        obtain ⟨id, t'⟩ := o
        rw [show committed t (.ok (id, t')) = t' from rfl, register_ok hreg]
        exact provided_upsert h (hregister _ _ _ rfl) id preferences now
    | delete identifier => exact fun r hr => h r (List.mem_filter.mp hr).1
    | allowTest identifier now =>
      intro r hr
      obtain ⟨row, hrow, rfl⟩ := List.mem_map.mp hr
      split
      · exact h row hrow
      · exact h row hrow
    | _ => cases hwrites

variable (onCurve : List UInt8 → Bool)

variable {onCurve} in
theorem accepts_of_validated {value : Value} {s : Subscription}
    (h : validateSubscription onCurve value = some s) : acceptsEndpoint s.endpoint = true := by
  unfold validateSubscription at h
  split at h
  · split at h
    · split at h
      · next hendpoint =>
        dsimp only at h
        split at h
        · split at h
          · obtain rfl := Option.some.inj h
            exact hendpoint
          · cases h
        · cases h
      · cases h
    · cases h
  · cases h

theorem provided_serviceStep {s : PushService} (h : Provided s.store) (op : ServiceOp) :
    Provided (serviceStep onCurve s op).store := by
  rw [serviceStep_store]
  have hcalls : ∀ calls : List StoreOp, (∀ call ∈ calls, CallOf onCurve s op call) →
      Provided (replay storeStep s.store calls) := by
    intro calls
    induction calls using List.reverseRecOn with
    | nil => exact fun _ => h
    | append_singleton calls call ih =>
      intro hcalls
      rw [replay_append, replay_singleton]
      refine provided_storeStep (ih fun c hc => hcalls c (List.mem_append_left _ hc)) ?_
      rintro subscription preferences now rfl
      cases hcalls _ (List.mem_append_right _ List.mem_cons_self) with
      | register value selected now subscription preferences hop hsubscription hpreferences =>
        exact accepts_of_validated hsubscription
  exact hcalls _ fun call hc => mem_storeCalls onCurve hc

theorem provided_boot {t : PushStore} {epoch : Str} {now : ℚ} {s : PushService}
    (h : boot onCurve t epoch now = some s) : Provided s.store := by
  unfold boot at h
  split at h
  · next hopens =>
    obtain rfl := Option.some.inj h
    intro r hr
    unfold opens at hopens
    rw [Bool.and_eq_true, Bool.and_eq_true] at hopens
    have hrow := List.all_eq_true.mp hopens.1.2 r hr
    unfold validateRegistration at hrow
    rw [Bool.and_eq_true, Bool.and_eq_true, decide_eq_true_eq] at hrow
    exact accepts_of_validated hrow.1.1
  · cases h

/-- Whatever tables the service found and whatever was posted, it is registered only with URLs of
    push providers. -/
theorem provided_life {t : PushStore} {epoch : Str} {now : ℚ} {ops : List LifeOp}
    {x : Option PushService × LifeOp}
    (h : x ∈ trace (lifeStep onCurve) (boot onCurve t epoch now) ops) :
    ∀ s ∈ x.1, Provided s.store := by
  refine trace_invariant (lifeStep onCurve) (I := fun o => ∀ s ∈ o, Provided s.store)
    (fun s hs => provided_boot onCurve hs) (fun o op ho s hs => ?_) h
  cases op with
  | step op =>
    obtain ⟨s', hs', rfl⟩ := Option.map_eq_some_iff.mp hs
    exact provided_serviceStep onCurve (ho s' hs') op
  | restart epoch now =>
    obtain ⟨s', -, hboot⟩ := Option.bind_eq_some_iff.mp hs
    exact provided_boot onCurve hboot

/-- A life without a restart is a run of the service. -/
theorem replay_steps (s : PushService) (ops : List ServiceOp) :
    replay (lifeStep onCurve) (some s) (ops.map .step) =
      some (replay (serviceStep onCurve) s ops) := by
  induction ops generalizing s with
  | nil => rfl
  | cons op ops ih => exact ih (serviceStep onCurve s op)

/-- A task that a step creates has not been cancelled. -/
theorem pending_of_new {s s' : PushService} {op : ServiceOp} (h : ControlStep s op s') {i : Nat}
    {t : SendTask} (ht : s'.tasks[i]? = some t) (hnew : s.tasks.length ≤ i) : t.pending = true := by
  have hi : i < s'.tasks.length := (List.getElem?_eq_some_iff.mp ht).1
  have hold : s'.tasks.length = s.tasks.length → t.pending = true := by
    intro hlength
    omega
  cases h with
  | quiet h => exact hold (congrArg List.length h.tasks)
  | retired epoch now hop h => exact hold ((congrArg List.length h.tasks).trans List.length_mapIdx)
  | revoked id h => exact hold ((congrArg List.length h.tasks).trans List.length_mapIdx)
  | failed h => exact hold ((congrArg List.length h.tasks).trans List.length_mapIdx)
  | left w cancelled hw hstop h => exact hold (congrArg List.length h.tasks)
  | claimed w d now tie hop hw havailable hfound hsend h =>
    rw [h.tasks] at ht
    unfold PushService.createTask PushService.setWorker at ht
    dsimp only at ht
    rw [List.getElem?_append_right hnew] at ht
    rw [List.mem_singleton.mp (List.mem_of_getElem? ht)]
    rfl
  | begun j now u hop hu hstage h =>
    exact hold ((congrArg List.length h.tasks).trans (List.length_modify _ _ _))
  | ended j u outcome now since hop hu hstage h =>
    exact hold ((congrArg List.length h.tasks).trans (List.length_modify _ _ _))
  | resumed w j cancelled u outcome checked retried again hop hw hu hstage h =>
    exact hold (congrArg List.length h.tasks)

/-- **Where the service sends.** In every life of the service, whatever tables it found and whatever
    was posted, a step that creates a send task has read a subscription whose endpoint is a URL of a
    push provider. -/
theorem sends_provided {t : PushStore} {epoch : Str} {now : ℚ} {ops : List LifeOp}
    {s : PushService} {op : ServiceOp} {i : Nat} {task : SendTask}
    (hstep : (some s, LifeOp.step op) ∈ trace (lifeStep onCurve) (boot onCurve t epoch now) ops)
    (htask : (serviceStep onCurve s op).tasks[i]? = some task) (hnew : s.tasks.length ≤ i) :
    ∃ r, s.store.get task.delivery.subscriptionId = some r ∧
      PushService.wanted r.preferences task.delivery.payload.kind = true ∧
      isUnsafeText r.subscription.endpoint = false ∧
      ∃ host, IsEndpoint r.subscription.endpoint host := by
  have hprovided : Provided s.store := provided_life onCurve hstep s rfl
  have hcontrol := serviceStep_control onCurve s op
  obtain ⟨u, hu, -, -⟩ | ⟨-, -, hsend⟩ :=
    pending_step hcontrol htask (pending_of_new hcontrol htask hnew)
  · exact absurd (List.getElem?_eq_some_iff.mp hu).1 (Nat.not_lt.mpr hnew)
  · obtain ⟨r, hget, hwanted⟩ := hsend.wanted
    obtain ⟨host, hhost⟩ := acceptsEndpoint_iff.mp (hprovided r (List.mem_of_find?_eq_some hget))
    obtain ⟨hsafe, hendpoint⟩ := endpointHost_iff.mp hhost
    exact ⟨r, hget, hwanted, hsafe, host, hendpoint⟩

/-- A browser that asks for a test. -/
def testedBrowser : List ServiceOp :=
  [.register browser.value Preferences.default.value 1000,
    .test browser.endpoint (Str.lit "u") 1001]

theorem sends_provided_test :
    ∃ task, (serviceStep (fun _ => true) (replay (serviceStep fun _ => true)
        (.started .empty (Str.lit "start") 999) testedBrowser) (.work 0 1002 0)).tasks[0]? =
          some task ∧
      ∃ r, (replay (serviceStep fun _ => true) (.started .empty (Str.lit "start") 999)
          testedBrowser).store.get task.delivery.subscriptionId = some r ∧
        ∃ host, IsEndpoint r.subscription.endpoint host := by
  have hrun : replay (lifeStep fun _ => true) (boot (fun _ => true) .empty (Str.lit "start") 999)
      (testedBrowser.map .step) = some (replay (serviceStep fun _ => true)
        (.started .empty (Str.lit "start") 999) testedBrowser) := by
    have hempty : Sound (fun _ => true) .empty := sound_empty
    rw [hempty.boot]
    exact replay_steps _ _ testedBrowser
  have hcreated : ((serviceStep (fun _ => true) (replay (serviceStep fun _ => true)
      (.started .empty (Str.lit "start") 999) testedBrowser) (.work 0 1002 0)).tasks[0]?).isSome =
        true := by
    decide +kernel
  obtain ⟨task, htask⟩ := Option.isSome_iff_exists.mp hcreated
  have hstep := List.mem_append_right
    (trace (lifeStep fun _ => true) (boot (fun _ => true) .empty (Str.lit "start") 999)
      (testedBrowser.map .step)) (List.mem_singleton.mpr (congrArg (·, LifeOp.step (.work 0 1002 0))
        hrun.symm))
  rw [← trace_concat] at hstep
  obtain ⟨r, hget, -, -, hendpoint⟩ :=
    sends_provided _ hstep htask (Nat.le_of_eq (by decide +kernel))
  exact ⟨task, htask, r, hget, hendpoint⟩

end InverterDashboard.Push

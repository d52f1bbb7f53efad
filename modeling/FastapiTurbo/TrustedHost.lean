/-! The two checks of the `Host` header: the layer of the Rust server (`server.rs`) and
`TrustedHostMiddleware` of the Python chain (`middleware/trustedhost.py`). -/
namespace FastapiTurbo.TrustedHost

abbrev Text := List Char

def decodeLatin1 (value : List UInt8) : Text :=
  value.map fun byte => Char.ofNat byte.toNat

/-- What is called on texts: `str.lower`, which is `to_lowercase` as well, and
`HeaderValue::to_str`. -/
structure Texts where
  lower : Text → Text
  toStr : List UInt8 → Option Text

/-- There is nothing to lower in the empty text, and `to_str` gives the bytes of a value as
ASCII or nothing. -/
structure Texts.Documented (texts : Texts) : Prop where
  lower_nil : texts.lower [] = []
  toStr_ascii : ∀ value text, texts.toStr value = some text → text = decodeLatin1 value

/-- The host in front of the first colon. -/
def withoutPort (host : Text) : Text :=
  if host.contains ':' then host.takeWhile (· ≠ ':') else host

variable (texts : Texts)

def permits (hostName pattern : Text) : Bool :=
  let pattern := texts.lower pattern
  if pattern = hostName then true
  else
    match pattern with
    | '*' :: suffix => suffix.isSuffixOf hostName
    | _ => false

/-- The layer of `MiddlewareConfig::TrustedHost`; `header` is the value of the first `Host`
header. -/
def trustedHostLayer (hosts : List Text) (header : Option (List UInt8)) : Bool :=
  if hosts.any (· = ['*']) then true
  else
    let hostHeader := (header.bind texts.toStr).getD []
    hosts.any (permits texts (texts.lower (withoutPort hostHeader)))

structure TrustedHostMiddleware where
  allowedHosts : List Text
  allowAll : Bool

def TrustedHostMiddleware.new (allowedHosts : List Text) : TrustedHostMiddleware :=
  let allowedHosts := if allowedHosts.isEmpty then [['*']] else allowedHosts
  ⟨allowedHosts, allowedHosts.contains ['*']⟩

def matchesHost (host pattern : Text) : Bool :=
  let pattern := texts.lower pattern
  pattern = host || ['*', '.'].isPrefixOf pattern && (pattern.drop 1).isSuffixOf host

def TrustedHostMiddleware.isValidHost (middleware : TrustedHostMiddleware) (host : Text) : Bool :=
  if middleware.allowAll then true
  else middleware.allowedHosts.any (matchesHost texts (texts.lower (withoutPort host)))

/-- The `host_header` of `__call__`. -/
def hostHeader (header : Option (List UInt8)) : Text :=
  (header.map decodeLatin1).getD []

/-- The decision of the Python middleware on a request. -/
def accepts (hosts : List Text) (header : Option (List UInt8)) : Bool :=
  (TrustedHostMiddleware.new hosts).isValidHost texts (hostHeader header)

/-- The pattern is the host, or `*.` in front of a domain that the host is under. -/
def Names (host pattern : Text) : Prop :=
  texts.lower pattern = host ∨
    ∃ domain, texts.lower pattern = '*' :: '.' :: domain ∧ '.' :: domain <:+ host

/-- A pattern with a star that no dot follows, and a host that ends like it. -/
def Loose (host pattern : Text) : Prop :=
  ∃ suffix, texts.lower pattern = '*' :: suffix ∧ suffix.head? ≠ some '.' ∧ suffix <:+ host

/-- A pattern that admits the empty host. -/
def Blank (pattern : Text) : Prop :=
  texts.lower pattern = [] ∨ texts.lower pattern = ['*']

def Readable (header : Option (List UInt8)) : Prop :=
  ∀ value ∈ header, texts.toStr value ≠ none

/-- Where the header is readable, a host that ends like a loose pattern is named by another
one; where it is not, the host is named by a pattern if and only if there is a blank one. -/
structure Tight (hosts : List Text) (header : Option (List UInt8)) (host : Text) : Prop where
  readable : Readable texts header → ∀ pattern ∈ hosts, Loose texts host pattern →
    ∃ other ∈ hosts, Names texts host other
  unreadable : ¬Readable texts header →
    ((∃ pattern ∈ hosts, Names texts host pattern) ↔ ∃ pattern ∈ hosts, Blank texts pattern)

variable {texts} {host pattern : Text} {hosts : List Text} {header : Option (List UInt8)}

theorem matchesHost_iff : matchesHost texts host pattern = true ↔ Names texts host pattern := by
  unfold matchesHost Names
  generalize texts.lower pattern = lowered
  match lowered with
  | [] | [_] => simp
  | first :: second :: domain =>
    by_cases hstar : first = '*'
    · by_cases hdot : second = '.'
      · simp [hstar, hdot]
      · simp [hdot, Ne.symm hdot]
    · simp [hstar, Ne.symm hstar]

theorem permits_iff :
    permits texts host pattern = true ↔ Names texts host pattern ∨ Loose texts host pattern := by
  rw [← matchesHost_iff]
  unfold permits matchesHost Loose
  generalize texts.lower pattern = lowered
  by_cases hsame : lowered = host
  · simp [hsame]
  · match lowered with
    | [] => simp [hsame]
    | first :: suffix =>
      by_cases hstar : first = '*'
      · subst hstar
        cases suffix with
        | nil => simp [hsame]
        | cons second rest =>
          by_cases hdot : second = '.'
          · simp [hdot]
          · simp [hsame, hdot, Ne.symm hdot]
      · simp [hsame, hstar, Ne.symm hstar]

theorem permits_nil_iff : permits texts [] pattern = true ↔ Blank texts pattern := by
  unfold permits Blank
  generalize texts.lower pattern = lowered
  match lowered with
  | [] => simp
  | first :: suffix => by_cases hstar : first = '*' <;> simp [hstar]

theorem accepts_iff (hnonempty : hosts ≠ []) (hstar : ['*'] ∉ hosts) :
    accepts texts hosts header = true ↔ ∃ pattern ∈ hosts,
      Names texts (texts.lower (withoutPort (hostHeader header))) pattern := by
  simp [accepts, TrustedHostMiddleware.new, TrustedHostMiddleware.isValidHost, hnonempty, hstar,
    matchesHost_iff]

/-- On a readable header the layer accepts what is named, and the hosts that end like a
pattern with a loose star. -/
theorem layer_of_readable (htexts : texts.Documented) (hstar : ['*'] ∉ hosts)
    (hreadable : Readable texts header) :
    trustedHostLayer texts hosts header = true ↔ ∃ pattern ∈ hosts,
      Names texts (texts.lower (withoutPort (hostHeader header))) pattern ∨
        Loose texts (texts.lower (withoutPort (hostHeader header))) pattern := by
  have hsame : (header.bind texts.toStr).getD [] = hostHeader header := by
    cases header with
    | none => rfl
    | some value =>
      obtain ⟨text, htext⟩ := Option.ne_none_iff_exists'.1 (hreadable value rfl)
      rw [Option.bind_some, htext, htexts.toStr_ascii value text htext]
      rfl
  simp [trustedHostLayer, hstar, hsame, permits_iff]

/-- The layer sees a header that it cannot read as an empty one. -/
theorem layer_of_not_readable (htexts : texts.Documented) (hstar : ['*'] ∉ hosts)
    (hreadable : ¬Readable texts header) :
    trustedHostLayer texts hosts header = true ↔ ∃ pattern ∈ hosts, Blank texts pattern := by
  have hempty : (header.bind texts.toStr).getD [] = [] := by
    cases header with
    | none => rfl
    | some value =>
      rw [Option.bind_some]
      cases htext : texts.toStr value with
      | none => rfl
      | some text =>
        refine absurd (fun other hother => ?_) hreadable
        rw [← Option.some.inj hother, htext]
        exact Option.some_ne_none text
  have hlower : texts.lower (withoutPort []) = [] := htexts.lower_nil
  simp [trustedHostLayer, hstar, hempty, hlower, permits_nil_iff]

/-- The two decisions are the same exactly if there is a pattern, and `*` is among them or
the others are tight for the host. -/
theorem decisions_agree_iff (htexts : texts.Documented) (hosts : List Text)
    (header : Option (List UInt8)) :
    trustedHostLayer texts hosts header = accepts texts hosts header ↔
      hosts ≠ [] ∧ (['*'] ∈ hosts ∨
        Tight texts hosts header (texts.lower (withoutPort (hostHeader header)))) := by
  by_cases hempty : hosts = []
  · subst hempty
    simp [trustedHostLayer, accepts, TrustedHostMiddleware.new, TrustedHostMiddleware.isValidHost]
  by_cases hstar : ['*'] ∈ hosts
  · simp [trustedHostLayer, accepts, TrustedHostMiddleware.new,
      TrustedHostMiddleware.isValidHost, hempty, hstar]
  rw [Bool.eq_iff_iff, accepts_iff hempty hstar]
  simp only [ne_eq, hempty, not_false_eq_true, true_and, hstar, false_or]
  by_cases hreadable : Readable texts header
  · rw [layer_of_readable htexts hstar hreadable]
    constructor
    · intro hsame
      refine ⟨fun _ pattern hmem hloose => hsame.1 ⟨pattern, hmem, .inr hloose⟩, ?_⟩
      exact fun hnot => absurd hreadable hnot
    · intro htight
      constructor
      · rintro ⟨pattern, hmem, hnames | hloose⟩
        · exact ⟨pattern, hmem, hnames⟩
        · exact htight.readable hreadable pattern hmem hloose
      · rintro ⟨pattern, hmem, hnames⟩
        exact ⟨pattern, hmem, .inl hnames⟩
  · rw [layer_of_not_readable htexts hstar hreadable]
    constructor
    · intro hsame
      exact ⟨fun hread => absurd hread hreadable, fun _ => hsame.symm⟩
    · intro htight
      exact (htight.unreadable hreadable).symm

/-- `HeaderValue::to_str` on visible ASCII, and the lower case of ASCII. -/
def asciiTexts : Texts where
  lower := List.map Char.toLower
  toStr value :=
    if value.all fun byte => 32 ≤ byte && byte < 127 || byte == 9 then some (decodeLatin1 value)
    else none

theorem asciiTexts_documented : asciiTexts.Documented where
  lower_nil := rfl
  toStr_ascii value text htext := by
    simp only [asciiTexts] at htext
    split at htext
    · exact (Option.some.inj htext).symm
    · cases htext

def hostValue (text : String) : Option (List UInt8) :=
  some (text.toList.map fun char => char.toNat.toUInt8)

/-- A host that the middleware rejects gets through the layer. -/
theorem loose_star_accepted :
    trustedHostLayer asciiTexts ["*example.com".toList] (hostValue "evilexample.com") = true ∧
      accepts asciiTexts ["*example.com".toList] (hostValue "evilexample.com") = false := by
  decide

theorem subdomain_decided_alike :
    trustedHostLayer asciiTexts ["*.example.com".toList] (hostValue "api.example.com:8000") =
      accepts asciiTexts ["*.example.com".toList] (hostValue "api.example.com:8000") := by
  refine (decisions_agree_iff asciiTexts_documented _ _).2 ⟨by decide, .inr ⟨?_, ?_⟩⟩
  · intro _ pattern hmem _
    exact ⟨pattern, hmem, .inr ⟨"example.com".toList, by
      rw [List.mem_singleton.1 hmem]
      decide⟩⟩
  · intro hunreadable
    refine absurd (fun value hvalue => ?_) hunreadable
    rw [← Option.some.inj hvalue]
    decide

end FastapiTurbo.TrustedHost

/-
  File:      TransportBalancer/Balancer/HostGroups.lean
  Subject:   WHICH HOSTS SHARE A RATE-LIMIT GROUP, over all hosts a URL can have.

  `Url::host_str` answers a domain name, an IPv4 address or an IPv6 address in brackets. Each is a
  list of labels with dots in between, and the key of a host is its last two labels.

  * `Host` -- the hosts, with what the URL parser guarantees of them;
  * **`key_eq_iff`** -- two hosts have one key exactly when their last two labels agree;
  * `Host.Related` -- what makes two hosts one provider; `Colliding` -- two kinds of pairs that
    share a key without being related;
  * **`groups_separate_iff`** -- endpoints of unrelated hosts share nothing, but for these.
-/
import TransportBalancer.Balancer.Registries

namespace TransportBalancer

open Interaction TaskPool OnDemand Segments

/-! ## 1. Hosts -/

/-- A piece of a host between dots. -/
abbrev Label := List Char

/-- The code points that no domain of a parsed URL has, the dot between labels among them. -/
def forbiddenInLabel (c : Char) : Bool :=
  c.toNat ≤ 32 || c.toNat == 127 || c ∈ ".#%/:<>?@[\\]^|".toList

/-- The URL parser's test for a host that has to be an IPv4 address: its last label, up to a root
    dot, is a number. -/
def endsInANumber (labels : List Label) : Bool :=
  let last := match labels.reverse with
    | [] :: last :: _ => last
    | last :: _ => last
    | [] => []
  match last with
  | '0' :: 'x' :: digits | '0' :: 'X' :: digits => digits.all fun c =>
    c.isDigit || ('a' ≤ c && c ≤ 'f') || ('A' ≤ c && c ≤ 'F')
  | _ => last ≠ [] && last.all Char.isDigit

/-- A domain name of a parsed URL. Empty labels are allowed, one at the end is the root dot. -/
structure DomainName where
  labels : List Label
  nonempty : joined '.' labels ≠ []
  allowed : ∀ label ∈ labels, ∀ c ∈ label, forbiddenInLabel c = false
  notNumber : endsInANumber labels = false

/-- An IPv6 address as a URL writes it: hexadecimal pieces and colons. -/
structure Ipv6Text where
  text : List Char
  hexadecimal : ∀ c ∈ text, c.isDigit || ('a' ≤ c && c ≤ 'f') || c == ':'

/-- `url::Host`. -/
inductive Host where
  | domain (name : DomainName)
  | ipv4 (a b c d : UInt8)
  | ipv6 (address : Ipv6Text)

/-- A number of an IPv4 address. -/
def decimal (n : UInt8) : Label := Nat.toDigits 10 n.toNat

/-- The host cut at its dots. -/
def Host.labels : Host → List Label
  | .domain name => name.labels
  | .ipv4 a b c d => [decimal a, decimal b, decimal c, decimal d]
  | .ipv6 address => ['[' :: address.text ++ [']']]

/-- `Url::host_str`. -/
def Host.text (host : Host) : String := String.ofList (joined '.' host.labels)

theorem decimal_inj {n m : UInt8} (h : decimal n = decimal m) : n = m := by
  have hread := congrArg (fun label => Nat.ofDigitChars 10 label 0) h
  simp only [decimal, Nat.ofDigitChars_ten_toDigits] at hread
  exact UInt8.toNat_inj.mp hread

theorem isDigit_decimal {n : UInt8} {c : Char} (h : c ∈ decimal n) : c.isDigit = true :=
  Nat.isDigit_of_mem_toDigits (by decide) (by decide) h

/-- The labels are what stands between the dots. -/
theorem Host.labels_free (host : Host) : ∀ label ∈ host.labels, '.' ∉ label := by
  intro label hlabel hdot
  cases host with
  | domain name => exact absurd (name.allowed label hlabel '.' hdot) (by decide)
  | ipv4 a b c d =>
    have hdigit : ('.' : Char).isDigit = true := by
      simp only [Host.labels, List.mem_cons, List.not_mem_nil, or_false] at hlabel
      rcases hlabel with rfl | rfl | rfl | rfl <;> exact isDigit_decimal hdot
    exact absurd hdigit (by decide)
  | ipv6 address =>
    rw [List.mem_singleton.mp hlabel] at hdot
    have hmem : '.' ∈ address.text := by simpa using hdot
    exact absurd (address.hexadecimal '.' hmem) (by decide)

theorem Host.labels_ne_nil (host : Host) : host.labels ≠ [] := by
  cases host with
  | domain name =>
    intro h
    exact name.nonempty (by rw [show name.labels = [] from h]; rfl)
  | ipv4 | ipv6 => exact List.cons_ne_nil _ _

/-! ## 2. The key of a host -/

/-- The last two labels, all of them if there are fewer. -/
def lastTwo (labels : List Label) : List Label := labels.rtake 2

/-- **The key of a host** is its last two labels. -/
theorem Host.key (host : Host) :
    extractRateLimitDomain host.text = some (String.ofList (joined '.' (lastTwo host.labels))) := by
  have hfree := host.labels_free
  by_cases hmore : 1 + 1 < host.labels.length
  · have hbehind := behind_joined hfree hmore
    exact extract_behind (by rw [Host.text, String.toList_ofList]; exact hbehind)
  · have hall : lastTwo host.labels = host.labels := by
      unfold lastTwo List.rtake
      rw [show host.labels.length - 2 = 0 by omega, List.drop_zero]
    rw [hall]
    refine extract_few ?_
    rw [Host.text, String.toList_ofList, count_joined hfree]
    omega

/-- **Two hosts have one key** exactly when their last two labels agree. -/
theorem key_eq_iff (host host' : Host) :
    extractRateLimitDomain host.text = extractRateLimitDomain host'.text ↔
      lastTwo host.labels = lastTwo host'.labels := by
  rw [host.key, host'.key, Option.some.injEq, String.ofList_inj]
  constructor
  · intro h
    have hsplit : ∀ host : Host,
        (joined '.' (lastTwo host.labels)).splitOn '.' = lastTwo host.labels := by
      intro host
      refine List.splitOn_intercalate '.' (fun label h => ?_) ?_
      · exact host.labels_free label (List.mem_of_mem_drop h)
      · exact List.ne_nil_of_length_pos (by
          have := List.length_pos_iff.mpr host.labels_ne_nil
          rw [lastTwo, List.rtake, List.length_drop]
          omega)
    rw [← hsplit host, h, hsplit host']
  · exact congrArg _

/-! ## 3. Providers -/

/-- The labels that are not empty. -/
def filled (labels : List Label) : List Label := labels.filter fun label => label ≠ []

/-- The last two non-empty labels of a name. -/
def DomainName.provider (name : DomainName) : List Label := lastTwo (filled name.labels)

/-- **Related hosts**: one IP address, or two names with the same last non-empty labels. -/
def Host.Related : Host → Host → Prop
  | .domain name, .domain name' => name.provider = name'.provider
  | .ipv4 a b c d, .ipv4 a' b' c' d' => a = a' ∧ b = b' ∧ c = c' ∧ d = d'
  | .ipv6 address, .ipv6 address' => address.text = address'.text
  | _, _ => False

/-- **Colliding hosts**: different IPv4 addresses with the same last two numbers, or names with the
    same last two labels and, of the non-empty ones in front, other last ones: as many of them are
    compared as empty ones are among the two. -/
def Host.Colliding : Host → Host → Prop
  | .domain name, .domain name' => ∃ front front' sld tld,
      name.labels = front ++ [sld, tld] ∧ name'.labels = front' ++ [sld, tld] ∧
        (filled front).rtake ([sld, tld].count []) ≠ (filled front').rtake ([sld, tld].count [])
  | .ipv4 a b c d, .ipv4 a' b' c' d' => c = c' ∧ d = d' ∧ (a ≠ a' ∨ b ≠ b')
  | _, _ => False

/-- A host that collides with no other: an IPv6 address, or a name whose last two labels are not
    empty. -/
def Host.Plain : Host → Prop
  | .domain name => [] ∉ lastTwo name.labels
  | .ipv4 .. => False
  | .ipv6 _ => True

/-! ## 4. Which hosts share a key -/

theorem lastTwo_eq (labels : List Label) :
    ∃ front, labels = front ++ lastTwo labels ∧ (front ≠ [] → (lastTwo labels).length = 2) := by
  refine ⟨labels.take (labels.length - 2), (List.take_append_drop _ _).symm, fun h => ?_⟩
  have hpos := List.length_pos_iff.mpr h
  rw [List.length_take] at hpos
  rw [lastTwo, List.rtake, List.length_drop]
  omega

/-- A name with non-empty labels at its end is the one they are. -/
theorem DomainName.provider_of_nonempty {name : DomainName} (h : [] ∉ lastTwo name.labels) :
    name.provider = lastTwo name.labels := by
  obtain ⟨front, hlabels, hlength⟩ := lastTwo_eq name.labels
  have hkept : (lastTwo name.labels).filter (fun label => label ≠ []) = lastTwo name.labels :=
    List.filter_eq_self.mpr fun label hl => decide_eq_true fun e => h (e ▸ hl)
  unfold DomainName.provider filled
  by_cases hfront : front = []
  · rw [hfront, List.nil_append] at hlabels
    rw [hlabels, hkept, ← hlabels]
  · rw [hlabels, List.filter_append, ← hlabels, hkept]
    rw [lastTwo, List.rtake, List.length_append, hlength hfront, Nat.add_sub_cancel, List.drop_left]

/-- With such an end two names of one key are of one provider. -/
theorem provider_eq_of_nonempty {name name' : DomainName}
    (hkey : lastTwo name.labels = lastTwo name'.labels) (h : [] ∉ lastTwo name.labels) :
    name.provider = name'.provider := by
  rw [DomainName.provider_of_nonempty h, DomainName.provider_of_nonempty (hkey ▸ h), hkey]

/-- A name with an empty label at its end has more than one. -/
theorem two_labels {name : DomainName} (h : [] ∈ lastTwo name.labels) :
    ∃ sld tld, lastTwo name.labels = [sld, tld] := by
  obtain ⟨front, hlabels, hlength⟩ := lastTwo_eq name.labels
  by_cases hfront : front = []
  · rw [hfront, List.nil_append] at hlabels
    have hmost : (lastTwo name.labels).length ≤ 2 := by
      rw [lastTwo, List.rtake, List.length_drop]
      omega
    match hlast : lastTwo name.labels with
    | [] => exact absurd (hlast ▸ h) List.not_mem_nil
    | [label] =>
      -- the empty text is no host
      have hlabel : label = [] := (List.mem_singleton.mp (hlast ▸ h)).symm
      exact absurd (by rw [hlabels, hlast, hlabel]; rfl) name.nonempty
    | [sld, tld] => exact ⟨sld, tld, rfl⟩
    | _ :: _ :: _ :: _ =>
      rw [hlast] at hmost
      simp at hmost
  · exact List.length_eq_two.mp (hlength hfront)

/-- A name with two labels at its end is of the provider they leave room for. -/
theorem DomainName.provider_append {name : DomainName} {front : List Label} {sld tld : Label}
    (h : name.labels = front ++ [sld, tld]) :
    name.provider = (filled front).rtake ([sld, tld].count []) ++ filled [sld, tld] := by
  have hroom : 2 - (filled [sld, tld]).length = [sld, tld].count [] ∧
      (filled [sld, tld]).length ≤ 2 := by
    by_cases hsld : sld = [] <;> by_cases htld : tld = [] <;> simp [filled, hsld, htld]
  have happend : filled name.labels = filled front ++ filled [sld, tld] := by
    rw [h]
    exact List.filter_append ..
  unfold DomainName.provider lastTwo List.rtake
  rw [happend, List.length_append, ← hroom.1, List.drop_append_of_le_length (by omega)]
  congr 2
  omega

/-- **Names collide** if they have one key and are of two providers. -/
theorem colliding_domain_iff (name name' : DomainName) :
    Host.Colliding (.domain name) (.domain name') ↔
      lastTwo name.labels = lastTwo name'.labels ∧ name.provider ≠ name'.provider := by
  have hlast : ∀ (front : List Label) (sld tld : Label),
      lastTwo (front ++ [sld, tld]) = [sld, tld] := by
    intro front sld tld
    rw [lastTwo, List.rtake, List.length_append]
    exact List.drop_left
  constructor
  · intro h
    obtain ⟨front, front', sld, tld, hlabels, hlabels', hne⟩ := h
    rw [DomainName.provider_append hlabels, DomainName.provider_append hlabels', hlabels, hlabels',
      hlast, hlast]
    exact ⟨rfl, fun e => hne (List.append_cancel_right e)⟩
  · intro h
    obtain ⟨hkey, hne⟩ := h
    have hempty : [] ∈ lastTwo name.labels := by
      by_contra hnone
      exact hne (provider_eq_of_nonempty hkey hnone)
    obtain ⟨sld, tld, hlast⟩ := two_labels hempty
    obtain ⟨front, hlabels, _⟩ := lastTwo_eq name.labels
    obtain ⟨front', hlabels', _⟩ := lastTwo_eq name'.labels
    rw [hlast] at hlabels
    rw [← hkey, hlast] at hlabels'
    refine ⟨front, front', sld, tld, hlabels, hlabels', fun e => hne ?_⟩
    rw [DomainName.provider_append hlabels, DomainName.provider_append hlabels', e]

/-- Labels with a decimal number at the end are those of an IPv4 address. -/
theorem endsInANumber_decimal (labels : List Label) (n : UInt8) :
    endsInANumber (labels ++ [decimal n]) = true := by
  have hne : decimal n ≠ [] := Nat.toDigits_ne_nil
  have hdigit : ∀ c ∈ decimal n, c.isDigit = true := fun c hc => isDigit_decimal hc
  have hx : ('x' : Char) ∉ decimal n := fun h => absurd (hdigit 'x' h) (by decide)
  have hX : ('X' : Char) ∉ decimal n := fun h => absurd (hdigit 'X' h) (by decide)
  unfold endsInANumber
  rw [List.reverse_append, List.reverse_singleton, List.singleton_append]
  generalize decimal n = last at hne hdigit hx hX
  have hlast : (match last :: labels.reverse with
      | [] :: last :: _ => last
      | last :: _ => last
      | [] => []) = last := by
    cases last with
    | nil => exact absurd rfl hne
    | cons => rfl
  rw [hlast]
  dsimp only
  split
  · exact absurd (by simp) hx
  · exact absurd (by simp) hX
  · exact Bool.and_eq_true_iff.mpr ⟨decide_eq_true hne, List.all_eq_true.mpr hdigit⟩

/-- A name does not end like an IPv4 address. -/
theorem domain_ne_ipv4 (name : DomainName) (c d : UInt8) :
    lastTwo name.labels ≠ [decimal c, decimal d] := by
  intro h
  obtain ⟨front, hlabels, _⟩ := lastTwo_eq name.labels
  rw [h] at hlabels
  have hnumber := name.notNumber
  rw [hlabels, show front ++ [decimal c, decimal d] = (front ++ [decimal c]) ++ [decimal d] by simp,
    endsInANumber_decimal] at hnumber
  cases hnumber

/-- A name has no brackets. -/
theorem domain_ne_ipv6 (name : DomainName) (address : Ipv6Text) :
    lastTwo name.labels ≠ ['[' :: address.text ++ [']']] := by
  intro h
  have hmem : '[' :: address.text ++ [']'] ∈ name.labels :=
    List.mem_of_mem_drop (show _ ∈ lastTwo name.labels by rw [h]; exact List.mem_cons_self)
  exact absurd (name.allowed _ hmem '[' List.mem_cons_self) (by decide)

theorem ipv4_ne_ipv6 (a b c d : UInt8) (address : Ipv6Text) :
    lastTwo (Host.ipv4 a b c d).labels ≠ lastTwo (Host.ipv6 address).labels := by
  intro h
  have hlength : 2 = 1 := congrArg List.length h
  cases hlength

/-- **One key for unrelated hosts** is a collision. -/
theorem related_iff_not_colliding {host host' : Host}
    (hkey : lastTwo host.labels = lastTwo host'.labels) :
    host.Related host' ↔ ¬ host.Colliding host' := by
  cases host with
  | domain name =>
    cases host' with
    | domain name' =>
      rw [colliding_domain_iff, not_and_not_right]
      exact ⟨fun h _ => h, fun h => h hkey⟩
    | ipv4 a b c d => exact absurd hkey (domain_ne_ipv4 name c d)
    | ipv6 address => exact absurd hkey (domain_ne_ipv6 name address)
  | ipv4 a b c d =>
    cases host' with
    | domain name => exact absurd hkey.symm (domain_ne_ipv4 name c d)
    | ipv4 a' b' c' d' =>
      injection hkey with hc htail
      injection htail with hd _
      have hc := decimal_inj hc
      have hd := decimal_inj hd
      constructor
      · rintro ⟨ha, hb, _, _⟩ ⟨_, _, hne⟩
        exact hne.elim (fun h => h ha) fun h => h hb
      · intro h
        have hab : a = a' ∧ b = b' := by
          by_contra hne
          exact h ⟨hc, hd, not_and_or.mp hne⟩
        exact ⟨hab.1, hab.2, hc, hd⟩
    | ipv6 address => exact absurd hkey (ipv4_ne_ipv6 a b c d address)
  | ipv6 address =>
    cases host' with
    | domain name => exact absurd hkey.symm (domain_ne_ipv6 name address)
    | ipv4 a b c d => exact absurd hkey.symm (ipv4_ne_ipv6 a b c d address)
    | ipv6 address' =>
      injection hkey with htext _
      injection htext with _ htext
      have htext : address.text = address'.text := List.append_cancel_right htext
      exact ⟨fun _ h => h, fun _ => htext⟩

/-- A collision is one key for two hosts that are not related. -/
theorem Host.Colliding.key {host host' : Host} (h : host.Colliding host') :
    lastTwo host.labels = lastTwo host'.labels := by
  cases host <;> cases host'
  all_goals first
    | exact ((colliding_domain_iff _ _).mp h).1
    | exact h.elim
    | obtain ⟨rfl, rfl, _⟩ := h
      rfl

/-! ## 5. Every other host collides with one -/

/-- Only the last two labels say whether a host is an IPv4 address. -/
theorem endsInANumber_append (front : List Label) (sld tld : Label) :
    endsInANumber (front ++ [sld, tld]) = endsInANumber [sld, tld] := by
  unfold endsInANumber
  rw [List.reverse_append]
  cases tld <;> rfl

/-- Another label in front of the last two of a name. -/
def DomainName.behind (name : DomainName) (label : Label) (sld tld : Label)
    (h : lastTwo name.labels = [sld, tld]) (hlabel : ∀ c ∈ label, forbiddenInLabel c = false) :
    DomainName where
  labels := [label, sld, tld]
  nonempty := by simp [joined]
  allowed := by
    intro label' hmem c hc
    rcases List.mem_cons.mp hmem with rfl | hmem
    · exact hlabel c hc
    · rw [← h] at hmem
      exact name.allowed label' (List.mem_of_mem_drop hmem) c hc
  notNumber := by
    obtain ⟨front, hlabels, _⟩ := lastTwo_eq name.labels
    have hname := name.notNumber
    rw [hlabels, h, endsInANumber_append] at hname
    rw [show [label, sld, tld] = [label] ++ [sld, tld] from rfl, endsInANumber_append]
    exact hname

/-- With an empty one of the two, the label in front belongs to the provider. -/
theorem provider_behind {name : DomainName} {label sld tld : Label}
    (h : lastTwo name.labels = [sld, tld]) (hlabel : ∀ c ∈ label, forbiddenInLabel c = false)
    (hempty : [] ∈ lastTwo name.labels) (hne : label ≠ []) :
    (name.behind label sld tld h hlabel).provider.head? = some label := by
  rw [h] at hempty
  unfold DomainName.provider DomainName.behind
  have hcase : sld = [] ∨ tld = [] := by simpa [eq_comm] using hempty
  rcases hcase with rfl | rfl
  · by_cases htld : tld = [] <;> simp [htld, hne, filled, lastTwo, List.rtake]
  · by_cases hsld : sld = [] <;> simp [hsld, hne, filled, lastTwo, List.rtake]

/-- **A host that is not plain** collides with some other. -/
theorem exists_colliding {host : Host} (h : ¬ host.Plain) : ∃ other, host.Colliding other := by
  cases host with
  | domain name =>
    have hempty : [] ∈ lastTwo name.labels := Classical.not_not.mp h
    obtain ⟨sld, tld, hlast⟩ := two_labels hempty
    -- one of two labels is not the one the provider of the name begins with
    obtain ⟨label, hlabel, hne, hother⟩ : ∃ label : Label,
        (∀ c ∈ label, forbiddenInLabel c = false) ∧ label ≠ [] ∧
          name.provider.head? ≠ some label := by
      by_cases ha : name.provider.head? = some ['a']
      · exact ⟨['b'], by simp [forbiddenInLabel], by decide, by rw [ha]; decide⟩
      · exact ⟨['a'], by simp [forbiddenInLabel], by decide, ha⟩
    refine ⟨.domain (name.behind label sld tld hlast hlabel),
      (colliding_domain_iff _ _).mpr ⟨hlast, fun e => hother ?_⟩⟩
    rw [e, provider_behind hlast hlabel hempty hne]
  | ipv4 a b c d => exact ⟨.ipv4 (a + 1) b c d, rfl, rfl, Or.inl (by simp)⟩
  | ipv6 address => exact absurd trivial h

/-- A plain one does not. -/
theorem Host.Plain.not_colliding {host : Host} (h : host.Plain) (other : Host) :
    ¬ host.Colliding other := by
  intro hc
  cases host with
  | domain name =>
    cases other with
    | domain name' =>
      obtain ⟨hkey, hne⟩ := (colliding_domain_iff name name').mp hc
      exact hne (provider_eq_of_nonempty hkey h)
    | ipv4 | ipv6 => exact hc
  | ipv4 => exact h
  | ipv6 => cases other <;> exact hc

/-! ## 6. Endpoints of built transports -/

/-- A transport has been built with an endpoint of this host, of this throttle state and client. -/
def BuiltFor (p : Pool ProcessState ProcessTask) (host : Host) (throttle : DomainRef)
    (client : ClientRef) : Prop :=
  ∃ t ∈ p.tasks, ∃ b transport, ∃ (i : Nat) (endpoint : EndpointConfig) (http : HttpTransport),
    t.call = .build b ∧ t.rest = some (.ret (.transport transport)) ∧
    b.endpoints[i]? = some endpoint ∧ endpoint.url.host = some host.text ∧
    transport.endpointThrottles[i]? = some throttle ∧ transport.endpoints[i]? = some http ∧
    http.client = client

/-- **Two hosts never share a group unless they are related**: neither the key, nor in any process
    the throttle state or the client of an endpoint. -/
structure NeverShared (host host' : Host) : Prop where
  key : extractRateLimitDomain host.text = extractRateLimitDomain host'.text → host.Related host'
  endpoints : ∀ p, processes.Reachable ProcessStart p → ∀ throttle client throttle' client',
    BuiltFor p host throttle client → BuiltFor p host' throttle' client' →
      throttle = throttle' ∨ client = client' → host.Related host'

/-- Endpoints share by the key of their hosts. -/
theorem builtFor_shared {p : Pool ProcessState ProcessTask}
    (hr : processes.Reachable ProcessStart p) {host host' : Host} {throttle throttle' : DomainRef}
    {client client' : ClientRef} (h : BuiltFor p host throttle client)
    (h' : BuiltFor p host' throttle' client') (hshared : throttle = throttle' ∨ client = client') :
    extractRateLimitDomain host.text = extractRateLimitDomain host'.text := by
  obtain ⟨t, ht, b, transport, i, endpoint, http, hcall, hres, he, hhost, hthrottle, hhttp,
    rfl⟩ := h
  obtain ⟨t', ht', b', transport', j, endpoint', http', hcall', hres', he', hhost', hthrottle',
    hhttp', rfl⟩ := h'
  obtain ⟨_, _, _, _, hthrottle₂, hthrottle₂', hhttp₂, hhttp₂', hone, hone'⟩ :=
    sharedByKey_reachable hr t ht t' ht' b b' transport transport' hcall hcall' hres hres' i j
      endpoint endpoint' he he'
  obtain rfl := Option.some.inj (hthrottle.symm.trans hthrottle₂)
  obtain rfl := Option.some.inj (hthrottle'.symm.trans hthrottle₂')
  obtain rfl := Option.some.inj (hhttp.symm.trans hhttp₂)
  obtain rfl := Option.some.inj (hhttp'.symm.trans hhttp₂')
  have hkey : endpoint.domainKey = endpoint'.domainKey := hshared.elim hone.mp hone'.mp
  unfold EndpointConfig.domainKey at hkey
  rw [hhost, hhost'] at hkey
  exact hkey

/-- **GROUPS ARE SEPARATE BUT FOR COLLISIONS.** Two hosts never share unless they are related
    exactly when they do not collide; a host never does with any other exactly when it is an IPv6
    address or a name whose last two labels are not empty. -/
theorem groups_separate_iff (host : Host) :
    (∀ other, NeverShared host other ↔ ¬ host.Colliding other) ∧
      ((∀ other, NeverShared host other) ↔ host.Plain) := by
  have hpair : ∀ other, NeverShared host other ↔ ¬ host.Colliding other := by
    intro other
    constructor
    · intro h hc
      exact (related_iff_not_colliding hc.key).mp (h.key ((key_eq_iff _ _).mpr hc.key)) hc
    · intro h
      have hkey : extractRateLimitDomain host.text = extractRateLimitDomain other.text →
          host.Related other := fun he =>
        (related_iff_not_colliding ((key_eq_iff _ _).mp he)).mpr h
      exact ⟨hkey, fun p hr throttle client throttle' client' hb hb' hshared =>
        hkey (builtFor_shared hr hb hb' hshared)⟩
  refine ⟨hpair, fun h => ?_, fun h other => (hpair other).mpr (h.not_colliding other)⟩
  by_contra hplain
  obtain ⟨other, hc⟩ := exists_colliding hplain
  exact (hpair other).mp (h other) hc

/-- Two providers' names, written with the root dot. -/
def rootedAlchemy : DomainName where
  labels := ["alchemy".toList, "com".toList, []]
  nonempty := by decide
  allowed := by simp [forbiddenInLabel]
  notNumber := by decide

def rootedDrpc : DomainName where
  labels := ["drpc".toList, "com".toList, []]
  nonempty := by decide
  allowed := by simp [forbiddenInLabel]
  notNumber := by decide

/-- Four endpoints of four providers. -/
def fourProviders : LoadBalancedTransportBuilder :=
  builderWithEndpoints [.new ⟨some "10.0.0.1", "http://10.0.0.1/"⟩ ⟨100⟩,
    .new ⟨some "192.168.0.1", "http://192.168.0.1/"⟩ ⟨100⟩,
    .new ⟨some "alchemy.com.", "https://alchemy.com./"⟩ ⟨100⟩,
    .new ⟨some "drpc.com.", "https://drpc.com./"⟩ ⟨100⟩]

/-- The endpoints of a transport built alone. -/
theorem builtFor_alone {b : LoadBalancedTransportBuilder} {s : ProcessState}
    {tr : Trace ProcessSig} {transport : LoadBalancedTransport} {throttles clients : List Nat}
    (hthrottles : transport.endpointThrottles = throttles)
    (hclients : transport.endpoints.map HttpTransport.client = clients) {host : Host} {i : Nat}
    {endpoint : EndpointConfig} {throttle client : Nat} (he : b.endpoints[i]? = some endpoint)
    (hhost : endpoint.url.host = some host.text) (hthrottle : throttles[i]? = some throttle)
    (hclient : clients[i]? = some client) :
    BuiltFor ⟨s, [⟨.build b, tr, some (.ret (.transport transport))⟩]⟩ host throttle client := by
  subst hthrottles hclients
  rw [List.getElem?_map] at hclient
  obtain ⟨http, hhttp, hclient⟩ := Option.map_eq_some_iff.mp hclient
  exact ⟨_, List.mem_singleton_self _, b, transport, i, endpoint, http, rfl, rfl, he, hhost,
    hthrottle, hhttp, hclient⟩

/-- **Unrelated hosts that share**: one transport has one state and one client for two addresses,
    and one for two names with the root dot. -/
theorem unrelated_hosts_share :
    ¬ NeverShared (.ipv4 10 0 0 1) (.ipv4 192 168 0 1) ∧
    ¬ NeverShared (.domain rootedAlchemy) (.domain rootedDrpc) ∧
    ∃ p, processes.Reachable ProcessStart p ∧
      BuiltFor p (.ipv4 10 0 0 1) 0 0 ∧ BuiltFor p (.ipv4 192 168 0 1) 0 0 ∧
      BuiltFor p (.domain rootedAlchemy) 1 1 ∧ BuiltFor p (.domain rootedDrpc) 1 1 := by
  have hbuild : (((build fourProviders).eval processHandler .initial).map fun x =>
      (x.1.endpointThrottles, x.1.endpoints.map HttpTransport.client)) =
        some ([0, 0, 1, 1], [0, 0, 1, 1]) := by
    decide +kernel
  obtain ⟨⟨transport, s⟩, heval, hx⟩ := Option.map_eq_some_iff.mp hbuild
  obtain ⟨hthrottles, hclients⟩ := Prod.mk.inj hx
  obtain ⟨vs, tr, hbuilt⟩ := build_alone heval
  have hstart : ProcessStart ⟨.initial, []⟩ := ⟨⟨_, _, rfl⟩, rfl⟩
  have hfor := @builtFor_alone fourProviders s tr transport _ _ hthrottles hclients
  refine ⟨fun h => ?_, fun h => ?_, _, (System.Reachable.start hstart).run hbuilt, ?_, ?_, ?_, ?_⟩
  · obtain ⟨hfirst, _⟩ := h.key (by decide +kernel)
    exact absurd hfirst (by decide)
  · have hprovider : rootedAlchemy.provider = rootedDrpc.provider := h.key (by decide +kernel)
    exact absurd hprovider (by decide)
  · exact hfor (i := 0) rfl (by decide) rfl rfl
  · exact hfor (i := 1) rfl (by decide) rfl rfl
  · exact hfor (i := 2) rfl (by decide) rfl rfl
  · exact hfor (i := 3) rfl (by decide) rfl rfl

end TransportBalancer

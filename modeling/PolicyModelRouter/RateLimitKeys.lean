import PolicyModelRouter.HandlerRuns

/-!
# The keys of the rate limits

The limit per address counts under the host alone, the limit per agent under host and agent
name with a colon between them. An IPv6 address holds colons itself, and so may an agent name.
-/

namespace PolicyModelRouter.RateLimitKeys
open HandlerRuns RouteEndpoint RouterCalls WireContracts

/-- Two texts joined by a separator are equal as parts, or one first part reaches into the
second part of the other. -/
theorem append_cons_eq_iff {α : Type} {sep : α} {a b a' b' : List α} :
    a ++ sep :: b = a' ++ sep :: b' ↔ (a = a' ∧ b = b') ∨
      (∃ x, a' = a ++ sep :: x ∧ b = x ++ sep :: b') ∨
        ∃ x, a = a' ++ sep :: x ∧ b' = x ++ sep :: b := by
  have hhead : ∀ {t s s' : List α}, sep :: s = t ++ sep :: s' →
      (t = [] ∧ s = s') ∨ ∃ x, t = sep :: x ∧ s = x ++ sep :: s' := by
    intro t s s' h
    cases t with
    | nil => exact .inl ⟨rfl, (List.cons.inj h).2⟩
    | cons c x =>
      obtain ⟨rfl, hs⟩ := List.cons.inj h
      exact .inr ⟨x, rfl, hs⟩
  constructor
  · intro h
    rcases List.append_eq_append_iff.mp h with ⟨t, rfl, ht⟩ | ⟨t, rfl, ht⟩
    · rcases hhead ht with ⟨rfl, rfl⟩ | ⟨x, rfl, rfl⟩
      · exact .inl ⟨(List.append_nil _).symm, rfl⟩
      · exact .inr (.inl ⟨x, rfl, rfl⟩)
    · rcases hhead ht with ⟨rfl, rfl⟩ | ⟨x, rfl, rfl⟩
      · exact .inl ⟨List.append_nil _, rfl⟩
      · exact .inr (.inr ⟨x, rfl, rfl⟩)
  · rintro (⟨rfl, rfl⟩ | ⟨x, rfl, rfl⟩ | ⟨x, rfl, rfl⟩) <;> simp

def isAddressDigit (c : Char) : Bool :=
  ('0' ≤ c && c ≤ '9') || ('a' ≤ c && c ≤ 'f') || ('A' ≤ c && c ≤ 'F')

structure IsOctet (o : List Char) : Prop where
  some_ : o ≠ []
  short : o.length ≤ 3
  digits : ∀ c ∈ o, '0' ≤ c ∧ c ≤ '9'
  bounded : o.foldl (fun n c => 10 * n + (c.toNat - 48)) 0 ≤ 255

inductive IsIpv4 : List Char → Prop where
  | octets {a b c d : List Char} (ha : IsOctet a) (hb : IsOctet b) (hc : IsOctet c)
      (hd : IsOctet d) : IsIpv4 (a ++ '.' :: (b ++ '.' :: (c ++ '.' :: d)))

structure IsGroup (g : List Char) : Prop where
  some_ : g ≠ []
  short : g.length ≤ 4
  digits : ∀ c ∈ g, isAddressDigit c = true

/-- Groups with colons between them, the last two of which may be an IPv4 address. -/
inductive Groups : ℕ → List Char → Prop where
  | last {g : List Char} (group : IsGroup g) : Groups 1 g
  | ipv4 {s : List Char} (ipv4 : IsIpv4 s) : Groups 2 s
  | cons {n : ℕ} {g rest : List Char} (group : IsGroup g) (groups : Groups n rest) :
      Groups (n + 1) (g ++ ':' :: rest)

/-- One side of the two colons that stand for the groups left out. -/
inductive Side : ℕ → List Char → Prop where
  | empty : Side 0 []
  | groups {n : ℕ} {s : List Char} (groups : Groups n s) : Side n s

inductive IsIpv6 : List Char → Prop where
  | full {s : List Char} (groups : Groups 8 s) : IsIpv6 s
  | compressed {n m : ℕ} {left right : List Char} (before : Side n left) (after : Side m right)
      (short : n + m ≤ 7) : IsIpv6 (left ++ ':' :: ':' :: right)
  | zoned {s zone : List Char} (address : IsIpv6 s) (some_ : zone ≠ []) :
      IsIpv6 (s ++ '%' :: zone)

/-- The textual addresses of clients. -/
inductive IsAddress : List Char → Prop where
  | ipv4 {s : List Char} (ipv4 : IsIpv4 s) : IsAddress s
  | ipv6 {s : List Char} (ipv6 : IsIpv6 s) : IsAddress s

/-- The text starts as an address does. -/
def Starts (s : List Char) : Prop := ∃ c rest, s = c :: rest ∧ (isAddressDigit c = true ∨ c = ':')

theorem Starts.append {s : List Char} (h : Starts s) (t : List Char) : Starts (s ++ t) := by
  obtain ⟨c, rest, rfl, hc⟩ := h
  exact ⟨c, rest ++ t, rfl, hc⟩

theorem IsGroup.starts {g : List Char} (h : IsGroup g) : Starts g := by
  obtain ⟨c, rest, rfl⟩ := List.exists_cons_of_ne_nil h.some_
  exact ⟨c, rest, rfl, .inl (h.digits c List.mem_cons_self)⟩

theorem IsIpv4.starts {s : List Char} (h : IsIpv4 s) : Starts s := by
  cases h with
  | @octets a _ _ _ ha _ _ _ =>
    obtain ⟨c, rest, rfl⟩ := List.exists_cons_of_ne_nil ha.some_
    refine Starts.append ⟨c, rest, rfl, .inl ?_⟩ _
    have hdigit := ha.digits c List.mem_cons_self
    simp [isAddressDigit, hdigit.1, hdigit.2]

theorem Groups.starts {n : ℕ} {s : List Char} (h : Groups n s) : Starts s := by
  cases h with
  | last group => exact group.starts
  | ipv4 ipv4 => exact ipv4.starts
  | cons group groups => exact group.starts.append _

theorem IsIpv6.starts {s : List Char} (h : IsIpv6 s) : Starts s := by
  induction h with
  | full groups => exact groups.starts
  | compressed before after short =>
    cases before with
    | empty => exact ⟨':', _, rfl, .inr rfl⟩
    | groups groups => exact groups.starts.append _
  | zoned address some_ ih => exact ih.append _

theorem IsAddress.starts {s : List Char} (h : IsAddress s) : Starts s := by
  cases h with
  | ipv4 ipv4 => exact ipv4.starts
  | ipv6 ipv6 => exact ipv6.starts

/-- The client of a connection, as the server reports it. -/
inductive ClientHost where
  | absent
  | address (text : String) (valid : IsAddress text.toList)

def ClientHost.reported : ClientHost → Option String
  | .absent => none
  | .address text _ => some text

def ClientHost.text (host : ClientHost) : String := host.reported.getD "unknown"

structure Caller where
  host : ClientHost
  agentName : BoundedIdentifier

def perIpKey (host : ClientHost) : String := "ip:" ++ host.text

def perAgentKey (caller : Caller) : String := caller.host.text ++ ":" ++ caller.agentName

theorem agentLimit_eq {scope : RouteScope} {body : RouteRequestEnvelope} {host : ClientHost}
    (reported : scope.clientHost = host.reported) :
    agentLimit scope body = .allow .perAgent (perAgentKey ⟨host, body.request.agentName⟩) := by
  rw [agentLimit, rateLimitKey, clientHost, reported]
  rfl

def redisKey (key : String) : String := "policy-model-router:rate-limit" ++ ":" ++ key

def incr (hits : String → ℕ) (key : String) : String → ℕ := Function.update hits key (hits key + 1)

private theorem append_cancel {start text text' : String} (h : start ++ text = start ++ text') :
    text = text' := by
  have hlists := congrArg String.toList h
  rw [String.toList_append, String.toList_append] at hlists
  exact String.toList_inj.mp (List.append_cancel_left hlists)

private theorem redisKey_inj {key key' : String} (h : redisKey key = redisKey key') : key = key' :=
  append_cancel h

theorem incr_of_ne (hits : String → ℕ) {key key' : String} (h : key ≠ key') :
    incr hits (redisKey key') (redisKey key) = hits (redisKey key) :=
  Function.update_of_ne (fun hsame => h (redisKey_inj hsame)) _ _

private theorem text_inj {host host' : ClientHost} (h : host.text = host'.text) : host = host' := by
  have hunknown : ∀ text, IsAddress text.toList → text ≠ "unknown" := by
    rintro text hvalid rfl
    obtain ⟨c, rest, hsplit, hc⟩ := hvalid.starts
    obtain ⟨rfl, -⟩ : 'u' = c ∧ _ := List.cons.inj hsplit
    exact absurd hc (by decide)
  cases host with
  | absent =>
    cases host' with
    | absent => rfl
    | address text valid => exact absurd h.symm (hunknown text valid)
  | address text valid =>
    cases host' with
    | absent => exact absurd h (hunknown text valid)
    | address text' valid' =>
      obtain rfl : text = text' := h
      rfl

private theorem perIpKey_inj {host host' : ClientHost} (h : perIpKey host = perIpKey host') :
    host = host' :=
  text_inj (append_cancel h)

/-- No host starts with the prefix of the other tier. -/
theorem perAgentKey_ne_perIpKey (caller : Caller) (host : ClientHost) :
    perAgentKey caller ≠ perIpKey host := by
  intro h
  have hlists := congrArg String.toList h
  simp only [perAgentKey, perIpKey, String.toList_append] at hlists
  cases hhost : caller.host with
  | absent =>
    rw [hhost] at hlists
    cases (List.cons.inj hlists).1
  | address text valid =>
    obtain ⟨c, rest, hsplit, hc⟩ := valid.starts
    have htext : (ClientHost.address text valid).text.toList = c :: rest := hsplit
    rw [hhost, htext] at hlists
    obtain rfl : c = 'i' := (List.cons.inj hlists).1
    exact absurd hc (by decide)

/-- The second host goes on, behind a colon, into what is the agent name of the first caller. -/
def Overlaps (caller other : Caller) : Prop :=
  ∃ x : String, other.host.text = caller.host.text ++ ":" ++ x ∧
    caller.agentName.val = x ++ ":" ++ other.agentName

theorem toList_join (a b : String) : (a ++ ":" ++ b).toList = a.toList ++ ':' :: b.toList := by
  simp

theorem perAgentKey_eq_iff {caller other : Caller} :
    perAgentKey caller = perAgentKey other ↔
      caller = other ∨ Overlaps caller other ∨ Overlaps other caller := by
  have hoverlaps : ∀ c d : Caller, (∃ x, d.host.text.toList = c.host.text.toList ++ ':' :: x ∧
      c.agentName.val.toList = x ++ ':' :: d.agentName.val.toList) ↔ Overlaps c d := by
    intro c d
    constructor
    · rintro ⟨x, hhost, hname⟩
      refine ⟨String.ofList x, ?_, ?_⟩
      · exact String.toList_inj.mp (by rw [toList_join, String.toList_ofList, hhost])
      · exact String.toList_inj.mp (by rw [toList_join, String.toList_ofList, hname])
    · rintro ⟨x, hhost, hname⟩
      exact ⟨x.toList, by rw [hhost, toList_join], by rw [hname, toList_join]⟩
  have hsame : (caller.host.text.toList = other.host.text.toList ∧
      caller.agentName.val.toList = other.agentName.val.toList) ↔ caller = other := by
    constructor
    · rintro ⟨hhost, hname⟩
      obtain ⟨host, agentName⟩ := caller
      obtain rfl := text_inj (String.toList_inj.mp hhost)
      obtain rfl := Subtype.ext (String.toList_inj.mp hname)
      rfl
    · rintro rfl
      exact ⟨rfl, rfl⟩
  rw [← String.toList_inj, perAgentKey, perAgentKey, toList_join, toList_join, append_cons_eq_iff,
    hsame, hoverlaps, hoverlaps]

private theorem not_overlaps_self (caller : Caller) : ¬ Overlaps caller caller := by
  rintro ⟨x, hhost, -⟩
  have hlength := congrArg String.length hhost
  simp only [String.length_append] at hlength
  have hcolon : ":".length = 1 := rfl
  omega

/-- Without a colon in the agent name, or in the longer host, nothing overlaps. -/
theorem not_overlaps_of_colonless {caller other : Caller}
    (h : ':' ∉ caller.agentName.val.toList ∨ ':' ∉ other.host.text.toList) :
    ¬ Overlaps caller other := by
  rintro ⟨x, hhost, hname⟩
  rw [hhost, hname, toList_join, toList_join] at h
  simp at h

/-- What two callers count under, in one keyspace for both tiers. -/
structure Separate (caller other : Caller) : Prop where
  perAgent : perAgentKey caller = perAgentKey other → caller = other
  perIp : perIpKey caller.host = perIpKey other.host → caller.host = other.host
  tiers : perAgentKey caller ≠ perIpKey other.host
  ownBudget : caller ≠ other → ∀ hits : String → ℕ,
    incr hits (redisKey (perAgentKey other)) (redisKey (perAgentKey caller)) =
      hits (redisKey (perAgentKey caller))
  ownTier : ∀ hits : String → ℕ,
    incr hits (redisKey (perIpKey other.host)) (redisKey (perAgentKey caller)) =
      hits (redisKey (perAgentKey caller)) ∧
    incr hits (redisKey (perAgentKey other)) (redisKey (perIpKey caller.host)) =
      hits (redisKey (perIpKey caller.host))

theorem separate_iff (caller other : Caller) :
    Separate caller other ↔ ¬ Overlaps caller other ∧ ¬ Overlaps other caller := by
  constructor
  · intro h
    constructor
    · intro hoverlaps
      obtain rfl := h.perAgent (perAgentKey_eq_iff.mpr (.inr (.inl hoverlaps)))
      exact not_overlaps_self _ hoverlaps
    · intro hoverlaps
      obtain rfl := h.perAgent (perAgentKey_eq_iff.mpr (.inr (.inr hoverlaps)))
      exact not_overlaps_self _ hoverlaps
  · rintro ⟨hforward, hbackward⟩
    have hperAgent : perAgentKey caller = perAgentKey other → caller = other := fun h =>
      (perAgentKey_eq_iff.mp h).resolve_right fun h => h.elim hforward hbackward
    refine ⟨hperAgent, perIpKey_inj, perAgentKey_ne_perIpKey caller other.host, ?_, ?_⟩
    · exact fun hne hits => incr_of_ne hits fun hsame => hne (hperAgent hsame)
    · intro hits
      exact ⟨incr_of_ne hits (perAgentKey_ne_perIpKey _ _),
        incr_of_ne hits (perAgentKey_ne_perIpKey _ _).symm⟩

namespace Deployed

theorem isGroup_one {c : Char} (h : isAddressDigit c = true) : IsGroup [c] :=
  ⟨by simp, by simp, fun _ hd => List.mem_singleton.mp hd ▸ h⟩

private theorem isGroup_fe80 : IsGroup ['f', 'e', '8', '0'] :=
  ⟨by simp, by simp, List.all_eq_true.mp (by decide)⟩

theorem isAddress_short : IsAddress "fe80::1".toList :=
  .ipv6 (.compressed (.groups (.last isGroup_fe80)) (.groups (.last (isGroup_one rfl))) (by decide))

theorem isAddress_long : IsAddress "fe80::1:2".toList :=
  .ipv6 (.compressed (.groups (.last isGroup_fe80))
    (.groups (.cons (isGroup_one rfl) (.last (isGroup_one rfl)))) (by decide))

def near : Caller := ⟨.address "fe80::1" isAddress_short, ⟨"2:agent", by decide⟩⟩

def far : Caller := ⟨.address "fe80::1:2" isAddress_long, ⟨"agent", by decide⟩⟩

/-- Two clients with different addresses and agent names share one budget. -/
theorem budget_shared : ¬ ∀ caller other : Caller, Separate caller other := by
  intro h
  have hoverlaps : Overlaps near far := ⟨"2", by decide, by decide⟩
  exact ((separate_iff near far).mp (h near far)).1 hoverlaps

end Deployed

end PolicyModelRouter.RateLimitKeys

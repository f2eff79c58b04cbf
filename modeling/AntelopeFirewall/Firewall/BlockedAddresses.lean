import AntelopeFirewall.Firewall.QueryString
import AntelopeFirewall.Firewall.ScreenedAccounts

/-!
# Blocked Addresses

The addresses of `block_ips` are kept as the texts that an operator wrote, and the filter
compares them with the text that the library prints for the address of a client. An address
has many spellings, and the library reads all of them but prints one.

- `KeepsAway` is what a blocked address owes,
- `keepsAway_iff` says that only the printed spelling keeps an address away, and
  `block_ips_iff` says what follows for the entries of the list.
-/

namespace AntelopeFirewall

open Library

namespace Firewall

/-- Every request whose client has the address is rejected by the filters, on every path. -/
def KeepsAway (fw : Firewall) (crates : Crates) (ip : IpAddr) : Prop :=
  ∀ request peer, fw.resolveClientIp crates request.headers peer = ip →
    ∀ body filterNow, fw.passesFilters (fw.infoOf crates request peer) body filterNow = false

/-- Without headers a client has the address of its socket. -/
theorem resolveClientIp_empty (fw : Firewall) (crates : Crates) (peer : IpAddr) :
    fw.resolveClientIp crates .empty peer = peer := by
  unfold resolveClientIp clientIpFromHeaders
  cases fw.clientIpHeader with
  | none => rfl
  | some name => rfl

section Filter

variable {crates : Crates} {config : Config}

/-- The filter rejects every request from an address whose text is in the list. -/
theorem contractFilter_blocked {blockedIps blocked allowed : List String} {info : RequestInfo}
    (h : crates.ipToString info.ip ∈ blockedIps) (body document : Json) :
    contractFilter crates blockedIps blocked allowed info body document = false := by
  unfold contractFilter
  rw [if_pos h, ite_self]

/-- A request without a body is read from everywhere else. -/
theorem passesFilters_infoRequest (hfind : crates.Follows accountsSelector accountsPath)
    (checked : CheckedConfig crates config) {ip : IpAddr}
    (h : crates.ipToString ip ∉ config.blockedIps) (filterNow : Nat → Nat) :
    checked.firewall.passesFilters ⟨.empty, ⟨"/v1/chain/get_info", none⟩, ip⟩ .null filterNow =
      true := by
  have hread : "/v1/chain/get_info" ∈ getEndpoints := by simp [getEndpoints]
  -- no account is found in a missing body
  have hnone : testedAccounts crates .null = ∅ := by
    apply Finset.eq_empty_of_forall_notMem
    intro account haccount
    have hclaimed := (mem_foundTexts hfind).mp (List.mem_toFinset.mp haccount)
    cases hclaimed
  rw [checked.passesFilters, contractFilter_iff (.inr hread) h, hnone]
  split
  · exact .inr fun account haccount => absurd haccount (Finset.notMem_empty _)
  · exact fun account haccount => absurd haccount (Finset.notMem_empty _)

/-- **Only the printed spelling keeps an address away.** -/
theorem keepsAway_iff (hfind : crates.Follows accountsSelector accountsPath)
    (checked : CheckedConfig crates config) (ip : IpAddr) :
    checked.firewall.KeepsAway crates ip ↔ crates.ipToString ip ∈ config.blockedIps := by
  constructor
  · intro haway
    by_contra hmissing
    have hrejected := haway (infoRequest none) ip
      (resolveClientIp_empty checked.firewall crates ip) .null fun _ => 0
    have hinfo : checked.firewall.infoOf crates (infoRequest none) ip =
        ⟨.empty, ⟨"/v1/chain/get_info", none⟩, ip⟩ := by
      unfold infoOf infoRequest
      rw [resolveClientIp_empty]
    rw [hinfo, passesFilters_infoRequest hfind checked hmissing] at hrejected
    cases hrejected
  · intro hlisted request peer hip body filterNow
    rw [checked.passesFilters]
    apply contractFilter_blocked
    show crates.ipToString (checked.firewall.resolveClientIp crates request.headers peer) ∈ _
    rwa [hip]

/-- **Blocked addresses**: an entry that can be read as an address keeps that address away
exactly if the list has the text that is printed for it. -/
theorem block_ips_iff (hfind : crates.Follows accountsSelector accountsPath) {fw : Firewall}
    (hbuild : fromConfig crates config = .ok fw) :
    ∀ entry ∈ config.blockedIps, ∀ ip, crates.parseIp entry = some ip →
      (fw.KeepsAway crates ip ↔ crates.ipToString ip ∈ config.blockedIps) := by
  obtain ⟨checked, rfl⟩ := fromConfig_ok hbuild
  intro entry _ ip _
  exact keepsAway_iff hfind checked ip

end Filter

end Firewall

/-! ## An entry in upper case -/

namespace Crates

/-- Digits from the highest to the lowest. -/
def fromDigits (base : Nat) (digits : List Nat) : Nat := digits.foldl (fun n d => base * n + d) 0

/-- A group of an IPv6 address: up to four digits, in either case. -/
def parseGroup (part : List Char) : Option Nat :=
  if 0 < part.length ∧ part.length ≤ 4 then
    (part.mapM fun c => hexDigit c.toLower).map (fromDigits 16)
  else none

/-- An IPv6 address in eight groups. -/
def parseGroups (text : String) : Option IpAddr :=
  ((text.toList.splitOn ':').mapM parseGroup).bind fun groups =>
    if groups.length = 8 then
      some (.v6 (BitVec.ofNat 128 (fromDigits (2 ^ 16) groups)))
    else none

/-- The eight groups in lower case without leading zeros. -/
def printGroups (bits : BitVec 128) : String :=
  ":".intercalate ((List.range 8).map fun i =>
    String.ofList (Nat.toDigits 16 (bits.toNat / 2 ^ (16 * (7 - i)) % 2 ^ 16)))

/-- The small instance with IPv6 addresses as the real library reads and writes them when no
group is zero. -/
def grouped : Crates :=
  { small [] with
    parseIp := parseGroups
    ipToString := fun ip =>
      match ip with
      | .v4 bits => (small []).ipToString (.v4 bits)
      | .v6 bits => printGroups bits }

end Crates

/-- How an operator may write an address. -/
def upperCase : String := "2001:0DB8:1:2:3:4:5:6"

/-- The address that the text is read as. -/
def clientIp : IpAddr := .v6 0x20010db8000100020003000400050006

/-- A configuration with one read node that blocks the address. -/
def blocking : Config :=
  { oneGetNode [] with filter := some { blockIps := some [upperCase] } }

theorem grouped_follows : Crates.grouped.Follows accountsSelector accountsPath :=
  Crates.small_follows []

theorem parseIp_upperCase : Crates.grouped.parseIp upperCase = some clientIp := by decide

theorem ipToString_clientIp : Crates.grouped.ipToString clientIp = "2001:db8:1:2:3:4:5:6" := by
  decide

theorem exists_blocking : ∃ checked : CheckedConfig Crates.grouped blocking,
    fromConfig Crates.grouped blocking = .ok checked.firewall := by
  have hurl : Crates.grouped.parseUrl "http://127.0.0.1:5001" = some getOne.url := by decide
  have hget : (buildNodeSet Crates.grouped (oneGetNode []).getNodes).toOption.map
      NodeSet.entries = some {getOne} := oneGetNode_entries hurl
  have hwindow : 0 < 60 := by simp
  have hparts : ∃ checked : CheckedConfig Crates.grouped blocking,
      fromConfig Crates.grouped blocking = .ok checked.firewall ∧
        checked.firewall = assemble Crates.grouped blocking [] ∅ {getOne} :=
    CheckedConfig.exists_of_parts (.inl rfl) hwindow rfl rfl hget rfl
  obtain ⟨checked, hbuild, -⟩ := hparts
  exact ⟨checked, hbuild⟩

/-- The address is on the list, and its requests are let through. -/
theorem upperCase_passes :
    ∃ fw, fromConfig Crates.grouped blocking = .ok fw ∧ upperCase ∈ blocking.blockedIps ∧
      Crates.grouped.parseIp upperCase = some clientIp ∧
      fw.receive Crates.grouped (infoRequest none) clientIp (fun _ => 0) =
        .ok ⟨⟨.empty, ⟨"/v1/chain/get_info", none⟩, clientIp⟩, [], .null⟩ ∧
      ¬ fw.KeepsAway Crates.grouped clientIp := by
  obtain ⟨checked, hbuild⟩ := exists_blocking
  have hmissing : Crates.grouped.ipToString clientIp ∉ blocking.blockedIps := by
    rw [ipToString_clientIp]
    decide
  refine ⟨checked.firewall, hbuild, by decide, parseIp_upperCase, ?_, ?_⟩
  · refine Firewall.receive_ok_iff.mpr ⟨Nat.zero_le _, ?_, ?_, rfl, rfl, ?_⟩
    · intro h
      cases h
    · show _ = (⟨.empty, _, checked.firewall.resolveClientIp Crates.grouped .empty clientIp⟩ :
        RequestInfo)
      rw [Firewall.resolveClientIp_empty]
      rfl
    · exact Firewall.passesFilters_infoRequest grouped_follows checked hmissing _
  · rw [Firewall.keepsAway_iff grouped_follows checked]
    exact hmissing

/-- The law for the same entry. -/
theorem block_ips_iff_upperCase :
    ∃ fw, fromConfig Crates.grouped blocking = .ok fw ∧
      (fw.KeepsAway Crates.grouped clientIp ↔
        Crates.grouped.ipToString clientIp ∈ blocking.blockedIps) := by
  obtain ⟨checked, hbuild⟩ := exists_blocking
  exact ⟨_, hbuild, Firewall.block_ips_iff grouped_follows hbuild upperCase (by decide) clientIp
    parseIp_upperCase⟩

end AntelopeFirewall

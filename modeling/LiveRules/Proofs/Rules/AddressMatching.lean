import LiveRules.Intel.Whitelist
import LiveRules.Proofs.Net.Halving
import LiveRules.Proofs.Rules.AddressRules
import LiveRules.Proofs.Rules.Composite

/-!
# Which addresses a list of rules matches

Rules are filed by the version that they are written in. A mapped version 6 address is
looked up as the version 4 address that it stands for, so only version 4 rules match it:
what else is listed for it is never looked at.
-/
namespace LiveRules
open Net

namespace Net

/-- The version 6 address that stands for a version 4 one. -/
def Address.mapped (a : BitVec 32) : BitVec 128 := 0xffff#96 ++ a

namespace Address

theorem toNat_mapped (a : BitVec 32) : (mapped a).toNat = 0xffff * 2 ^ 32 + a.toNat := by
  have parts : (mapped a).toNat = (0xffff#96).toNat <<< 32 ||| a.toNat := BitVec.toNat_append ..
  rw [parts, ← Nat.shiftLeft_add_eq_or_of_lt a.isLt, Nat.shiftLeft_eq]
  rfl

theorem unmapped?_eq_some {b : BitVec 128} {a : BitVec 32} :
    unmapped? b = some a ↔ b = mapped a := by
  have bound := a.isLt
  have high : b >>> 32 = 0xffff#128 ↔ b.toNat / 2 ^ 32 = 0xffff := by
    rw [← BitVec.toNat_inj, BitVec.toNat_ushiftRight, Nat.shiftRight_eq_div_pow]
    rfl
  have low : b.setWidth 32 = a ↔ b.toNat % 2 ^ 32 = a.toNat := by
    rw [← BitVec.toNat_inj, BitVec.toNat_setWidth]
  rw [unmapped?, Option.ite_none_right_eq_some, Option.some.injEq, high, low, ← BitVec.toNat_inj,
    toNat_mapped]
  omega

theorem plain_eq_v4 {a : Address} {b : BitVec 32} :
    a.plain = .v4 b ↔ a = .v4 b ∨ a = .v6 (mapped b) := by
  cases a with
  | v4 a => simp [plain]
  | v6 a =>
      simp only [plain, v6.injEq, ← unmapped?_eq_some]
      cases unmapped? a <;> simp

theorem plain_eq_v6 {a : Address} {b : BitVec 128} :
    a.plain = .v6 b ↔ a = .v6 b ∧ ∀ c, b ≠ mapped c := by
  cases a with
  | v4 a => simp [plain]
  | v6 a =>
      simp only [plain, v6.injEq, Ne, ← unmapped?_eq_some]
      cases found : unmapped? a with
      | none =>
          simp only [v6.injEq]
          refine ⟨?_, And.left⟩
          rintro rfl
          exact ⟨rfl, by simp [found]⟩
      | some c =>
          simp only [reduceCtorEq, false_iff, not_and]
          rintro rfl none
          exact none c found

end Address

/-- As `contains`, with the one subnet to look at found by halving. -/
def AddressSet.probe (s : AddressSet) (a : Address) : Bool :=
  match a.plain with
  | .v4 a => Subnet.probe a s.v4
  | .v6 a => Subnet.probe a s.v6

theorem Aggregation.probe_eq_contains (g : Aggregation) (ns : List Network) (a : Address) :
    (g.collect ns).probe a = (g.collect ns).contains a := by
  have v4 (b : BitVec 32) :
      Subnet.probe b (g.collect ns).v4 = Subnet.search b (g.collect ns).v4 :=
    Subnet.probe_eq_search (g.aggregates_v4 _).sorted
  have v6 (b : BitVec 128) :
      Subnet.probe b (g.collect ns).v6 = Subnet.search b (g.collect ns).v6 :=
    Subnet.probe_eq_search (g.aggregates_v6 _).sorted
  cases a with
  | v4 a => exact v4 a
  | v6 a =>
      simp only [AddressSet.probe, AddressSet.contains, Address.plain]
      cases Address.unmapped? a with
      | some mapped => exact v4 mapped
      | none => exact v6 a

end Net

namespace AddressRules
variable {rules : List String} {ns ns' : List Network} {rule : String} {n : Network} {a : Address}

/-- The rules that are added cover what each of them covers. -/
theorem covers_adds (added : rules.foldlM add ns = .ok ns') (a : Address) :
    (∃ n ∈ ns', n.covers a.plain = true) ↔
      (∃ n ∈ ns, n.covers a.plain = true) ∨ ∃ rule ∈ rules, Hits rule a := by
  induction rules generalizing ns with
  | nil =>
      obtain rfl : ns = ns' := Except.ok.inj added
      simp
  | cons rule rules ih =>
      rw [List.foldlM_cons] at added
      cases first : add ns rule with
      | error e => simp [first, bind, Except.bind] at added
      | ok next =>
          rw [first] at added
          rw [ih added, covers_add a first, List.exists_mem_cons_iff, or_assoc]

/-- A list of accepted rules matches an address if one of the rules does. -/
theorem contains_adds (g : Aggregation) (added : rules.foldlM add [] = .ok ns) (a : Address) :
    (g.collect ns).contains a = true ↔ ∃ rule ∈ rules, Hits rule a := by
  rw [g.contains_collect, covers_adds added]
  simp

/-- The first bits of an address are those that a rule of a version fixes. -/
def Covers {w : Nat} (version : Subnet w → Network) (rule : String) (b : BitVec w) : Prop :=
  ∃ n, network rule = .ok (version n) ∧ ∀ i < n.length, b.getMsbD i = n.base.getMsbD i

theorem hits_iff_covers_v4 {b : BitVec 32} (plain : a.plain = .v4 b) :
    Hits rule a ↔ Covers .v4 rule b := by
  simp only [Hits, Covers, plain, ← Subnet.covers_iff_bits]
  constructor
  · rintro ⟨n, said, covers⟩
    cases n with
    | v4 n => exact ⟨n, said, covers⟩
    | v6 n => cases covers
  · rintro ⟨n, said, covers⟩
    exact ⟨.v4 n, said, covers⟩

theorem hits_iff_covers_v6 {b : BitVec 128} (plain : a.plain = .v6 b) :
    Hits rule a ↔ Covers .v6 rule b := by
  simp only [Hits, Covers, plain, ← Subnet.covers_iff_bits]
  constructor
  · rintro ⟨n, said, covers⟩
    cases n with
    | v4 n => cases covers
    | v6 n => exact ⟨n, said, covers⟩
  · rintro ⟨n, said, covers⟩
    exact ⟨.v6 n, said, covers⟩

/-- Whatever way of aggregating subnets is used, the search for one subnet says of an
address what going through all rules says: of a version 4 address whether a rule of
version 4 covers it, of a mapped one whether such a rule covers the address it stands
for, and of any other whether a rule of version 6 covers it. -/
theorem search_agrees_with_scan (g : Aggregation) (added : rules.foldlM add [] = .ok ns)
    (a : Address) :
    (g.collect ns).probe a = (g.collect ns).contains a ∧
    ((g.collect ns).contains a = true ↔
      (∃ b, a = .v4 b ∧ ∃ rule ∈ rules, Covers .v4 rule b) ∨
      (∃ b, a = .v6 b ∧ (∀ c, b ≠ Address.mapped c) ∧ ∃ rule ∈ rules, Covers .v6 rule b) ∨
      ∃ b, a = .v6 (Address.mapped b) ∧ ∃ rule ∈ rules, Covers .v4 rule b) := by
  refine ⟨g.probe_eq_contains ns a, ?_⟩
  rw [contains_adds g added]
  constructor
  · rintro ⟨rule, listed, hits⟩
    cases plain : a.plain with
    | v4 b =>
        have covers := (hits_iff_covers_v4 plain).mp hits
        rcases Address.plain_eq_v4.mp plain with here | mapped
        · exact .inl ⟨b, here, rule, listed, covers⟩
        · exact .inr (.inr ⟨b, mapped, rule, listed, covers⟩)
    | v6 b =>
        obtain ⟨here, unmapped⟩ := Address.plain_eq_v6.mp plain
        exact .inr (.inl ⟨b, here, unmapped, rule, listed, (hits_iff_covers_v6 plain).mp hits⟩)
  · rintro (⟨b, here, rule, listed, covers⟩ | ⟨b, here, unmapped, rule, listed, covers⟩ |
      ⟨b, mapped, rule, listed, covers⟩)
    · exact ⟨rule, listed, (hits_iff_covers_v4 (Address.plain_eq_v4.mpr (.inl here))).mpr covers⟩
    · have plain := Address.plain_eq_v6.mpr ⟨here, unmapped⟩
      exact ⟨rule, listed, (hits_iff_covers_v6 plain).mpr covers⟩
    · exact ⟨rule, listed, (hits_iff_covers_v4 (Address.plain_eq_v4.mpr (.inr mapped))).mpr covers⟩

/-- Host bits that are set, nested subnets and both versions. -/
def nested : List String := ["10.1.2.3/16", "10.0.0.0/8", "2001:db8::/32"]

theorem nested_added : nested.foldlM add [] = .ok [.v4 { base := 0x0a010203, length := 16 },
    .v4 { base := 0x0a000000, length := 8 },
    .v6 { base := 0x20010db8000000000000000000000000, length := 32 }] := by rfl

/-- The last address of the wider subnet, as a mapped one. -/
theorem search_agrees_with_scan_nested : ∃ ns, nested.foldlM add [] = .ok ns ∧
    (Aggregation.outermost.collect ns).probe (.v6 (Address.mapped 0x0affffff)) = true := by
  refine ⟨_, nested_added, ?_⟩
  have ⟨same, scan⟩ := search_agrees_with_scan .outermost nested_added
    (.v6 (Address.mapped 0x0affffff))
  rw [same, scan]
  refine .inr (.inr ⟨0x0affffff, rfl, "10.0.0.0/8", by decide,
    { base := 0x0a000000, length := 8 }, rfl, ?_⟩)
  exact (by decide : ∀ i < 8, (0x0affffff#32).getMsbD i = (0x0a000000#32).getMsbD i)

/-! ## Addresses that are listed -/

/-- The address is a mapped one, and no rule of version 4 covers what it stands for. -/
def Astray (rules : List String) (a : Address) : Prop :=
  ∃ b, a = .v6 (Address.mapped b) ∧ ∀ rule ∈ rules, ¬ Covers .v4 rule b

/-- A listed address goes astray or is hit, by the rule that lists it or another one. -/
theorem hit_iff_not_astray (listed : rule ∈ rules) (said : network rule = .ok n)
    (inside : n.covers a = true) : (∃ rule ∈ rules, Hits rule a) ↔ ¬ Astray rules a := by
  constructor
  · rintro ⟨rule, listed, hits⟩ ⟨b, mapped, none⟩
    exact none rule listed
      ((hits_iff_covers_v4 (Address.plain_eq_v4.mpr (.inr mapped))).mp hits)
  · intro found
    by_cases same : a.plain = a
    · exact ⟨rule, listed, n, said, by rwa [same]⟩
    · obtain ⟨b, mapped⟩ : ∃ b, a = .v6 (Address.mapped b) := by
        cases plain : a.plain with
        | v4 b =>
            rcases Address.plain_eq_v4.mp plain with here | mapped
            · exact absurd (plain.trans here.symm) same
            · exact ⟨b, mapped⟩
        | v6 b => exact absurd (plain.trans (Address.plain_eq_v6.mp plain).1.symm) same
      by_contra none
      refine found ⟨b, mapped, fun rule listed covers => none ⟨rule, listed, ?_⟩⟩
      exact (hits_iff_covers_v4 (Address.plain_eq_v4.mpr (.inr mapped))).mpr covers

/-- A whitelist takes the rules that a set takes. -/
theorem networks_eq_adds (ips : List String) (ns : List Network) :
    ips.foldlM add ns = (Intel.Whitelist.networks ips).map (ns ++ ·) := by
  induction ips generalizing ns with
  | nil => simp [Intel.Whitelist.networks, Except.map, pure, Except.pure]
  | cons ip ips ih =>
      rw [List.foldlM_cons, add, Intel.Whitelist.networks]
      cases network ip with
      | error e => rfl
      | ok n =>
          refine (ih (ns ++ [n])).trans ?_
          cases Intel.Whitelist.networks ips <;> simp [Except.map]

theorem storeAddresses_ok {w w' : Intel.Whitelist} (stored : w.storeAddresses rules = .ok w') :
    ∃ ns, rules.foldlM add [] = .ok ns ∧ w'.addresses = Aggregation.outermost.collect ns := by
  rw [networks_eq_adds]
  unfold Intel.Whitelist.storeAddresses at stored
  cases nets : Intel.Whitelist.networks rules with
  | error e => simp [nets, Except.map] at stored
  | ok ns =>
      simp only [nets, Except.map, Except.ok.injEq] at stored
      exact ⟨ns, by simp [Except.map], by rw [← stored]; rfl⟩

end AddressRules

/-- A hit in the table of a set is found, whatever the set refers to. -/
theorem Family.Published.find_own {D : Dialect} {f : Family D}
    {last : Nat → Option (Generation D)} (published : f.Published last) (misses : D.EmptyMisses)
    {id : Nat} {made : Generation D} (found : last id = some made) {key : D.Key}
    (hit : (D.probe key made.table).isSome = true) : (f.find id key).isSome = true := by
  obtain ⟨table, shown, hit⟩ := (published.own misses id key).mpr ⟨made, found, hit⟩
  rw [Family.find, Groups.find, Groups.findIn, Groups.findWithin_eq, List.findSome?_isSome_iff]
  exact ⟨.table table, shown, by rwa [Groups.look_table]⟩

theorem Net.Aggregation.emptyMisses (g : Aggregation) : g.dialect.EmptyMisses := by
  intro source files table compiled empty a
  obtain ⟨ns, -, rfl⟩ := Recipe.adds_of_compile (R := g.recipe) compiled
  obtain rfl : ns = [] := List.length_eq_zero_iff.mp empty
  have nothing := (not_congr (g.probe_collect [] a)).mpr (by simp)
  exact Option.not_isSome_iff_eq_none.mp nothing

namespace AddressRules
variable {rules : List String} {rule : String} {n : Network} {a : Address}

/-- Of the addresses that a rule lists, the mapped ones that no rule of version 4 covers
are missed and all others are matched: by a list of rules, by a whitelist, and by a set,
which asks its own rules whatever else it refers to. -/
theorem listed_missed_iff_astray (listed : rule ∈ rules) (said : network rule = .ok n)
    (inside : n.covers a = true) :
    (∀ (g : Aggregation) (ns : List Network), rules.foldlM add [] = .ok ns →
      ((g.collect ns).contains a = false ↔ Astray rules a)) ∧
    (∀ w w' : Intel.Whitelist, w.storeAddresses rules = .ok w' →
      (w'.addresses.contains a = false ↔ Astray rules a)) ∧
    ∀ (g : Aggregation) (f : Family g.dialect) (last : Nat → Option (Generation g.dialect))
      (id : Nat) (made : Generation g.dialect) (source : RuleSource) (files : Files.Tree),
      f.Published last → last id = some made →
      g.dialect.compile source files = .ok made.table → source.rules files = rules →
      (made.table.contains a = false ↔ Astray rules a) ∧
        (¬ Astray rules a → (f.find id a).isSome = true) := by
  have hit := hit_iff_not_astray listed said inside
  have matching (g : Aggregation) (ns : List Network) (added : rules.foldlM add [] = .ok ns) :
      (g.collect ns).contains a = false ↔ Astray rules a := by
    rw [← Bool.not_eq_true, contains_adds g added, hit, not_not]
  refine ⟨matching, ?_, ?_⟩
  · intro w w' stored
    obtain ⟨ns, added, same⟩ := storeAddresses_ok stored
    rw [same]
    exact matching .outermost ns added
  · intro g f last id made source files published found compiled same
    have probe := g.lookup.probe_compile compiled a
    rw [same] at probe
    have found? : (g.dialect.probe a made.table).isSome = true ↔ ¬ Astray rules a := probe.trans hit
    refine ⟨?_, fun fine => published.find_own g.emptyMisses found (found?.mpr fine)⟩
    rw [← not_iff_not, ← found?]
    simp

/-- A mapped address and a subnet of version 4. -/
def guests : List String := ["::ffff:10.0.0.1", "192.0.2.0/24"]

theorem guests_added : guests.foldlM add [] =
    .ok [.v6 (.single (Address.mapped 0x0a000001)), .v4 { base := 0xc0000200, length := 24 }] := by
  rfl

theorem guests_astray : Astray guests (.v6 (Address.mapped 0x0a000001)) := by
  refine ⟨0x0a000001, rfl, ?_⟩
  rintro rule listed ⟨n, said, agrees⟩
  have version6 : network "::ffff:10.0.0.1" = .ok (.v6 (.single (Address.mapped 0x0a000001))) := rfl
  have version4 : network "192.0.2.0/24" = .ok (.v4 { base := 0xc0000200, length := 24 }) := rfl
  simp only [guests, List.mem_cons, List.not_mem_nil, or_false] at listed
  rcases listed with rfl | rfl
  · cases version6.symm.trans said
  · cases version4.symm.trans said
    exact absurd (agrees 0 (by decide)) (by decide)

/-- The mapped address is listed itself and missed. -/
theorem listed_missed_guest : ∃ ns, guests.foldlM add [] = .ok ns ∧
    network "::ffff:10.0.0.1" = .ok (Network.ofAddress (.v6 (Address.mapped 0x0a000001))) ∧
    (Aggregation.outermost.collect ns).contains (.v6 (Address.mapped 0x0a000001)) = false := by
  have inside : (Network.v6 (.single (Address.mapped 0x0a000001))).covers
      (.v6 (Address.mapped 0x0a000001)) = true := Subnet.covers_base _
  have missed := listed_missed_iff_astray (List.mem_cons_self : _ ∈ guests) rfl inside
  exact ⟨_, guests_added, rfl, (missed.1 .outermost _ guests_added).mpr guests_astray⟩

end AddressRules
end LiveRules

import Mathlib.Data.String.Basic
import Telemetry.Proofs.List
import Telemetry.Proofs.NameMap
import Telemetry.Provider

/-!
# The union of what the providers keep

However polls of the providers follow each other, by hand or as time passes,
each provider keeps what the last successful poll of its own found and nothing
of the polls before.  The union lists this provider by provider, and the samples
of a provider in one order only.
-/

namespace Telemetry

/-! ## What one provider keeps -/

/-- The samples are what the last successful one of the first polls found, or
none of them succeeded and there are no samples. -/
def Collector.LastFound (c : Collector) (polls : Nat) (s : Samples) : Prop :=
  (∃ k < polls, c.collect k = .ok s ∧
    ∀ later < polls, k < later → ∃ reason, c.collect later = .error reason) ∨
  s = .empty ∧ ∀ k < polls, ∃ reason, c.collect k = .error reason

theorem Collector.LastFound.of_ok {c : Collector} {polls : Nat} {s : Samples}
    (h : c.collect polls = .ok s) : c.LastFound (polls + 1) s :=
  .inl ⟨polls, Nat.lt_succ_self polls, h, fun later hlater hafter => by omega⟩

theorem Collector.LastFound.of_error {c : Collector} {polls : Nat} {s : Samples}
    {reason : String} (hkept : c.LastFound polls s)
    (h : c.collect polls = .error reason) :
    c.LastFound (polls + 1) s := by
  have hfailed {k : Nat} (hk : k < polls + 1) (hbefore : k < polls →
    ∃ e, c.collect k = .error e) :
      ∃ e, c.collect k = .error e := by
    rcases Nat.lt_succ_iff_lt_or_eq.mp hk with hlt | rfl
    · exact hbefore hlt
    · exact ⟨reason, h⟩
  rcases hkept with ⟨k, hk, hfound, hlater⟩ | ⟨rfl, hnone⟩
  · refine .inl ⟨k, Nat.lt_succ_of_lt hk, hfound, fun later hlt hafter => ?_⟩
    exact hfailed hlt fun hbefore => hlater later hbefore hafter
  · exact .inr ⟨rfl, fun k hk => hfailed hk (hnone k)⟩

namespace Provider

variable {p : Provider}

theorem poll_of_ok {s : Samples} (h : p.collector.collect p.polls = .ok s) :
    p.poll = (.ok (), ⟨p.collector, p.polls + 1, s⟩) := by
  rw [poll, h]

theorem poll_of_error {reason : String}
    (h : p.collector.collect p.polls = .error reason) :
    p.poll = (.error reason, ⟨p.collector, p.polls + 1, p.latest⟩) := by
  rw [poll, h]

theorem pollTimes_succ (p : Provider) (n : Nat) :
    p.pollTimes (n + 1) = (p.pollTimes n).poll.2 := by
  induction n generalizing p with
  | zero => rfl
  | succ n ih => exact ih p.poll.2

theorem pollTimes_add (p : Provider) (m n : Nat) :
    p.pollTimes (m + n) = (p.pollTimes m).pollTimes n := by
  induction n with
  | zero => rfl
  | succ n ih => rw [← Nat.add_assoc, pollTimes_succ, pollTimes_succ, ih]

/-- After its polls a provider keeps what the last successful one found. -/
theorem pollTimes_spec (c : Collector) (n : Nat) :
    ∃ s, (new c).pollTimes n = ⟨c, n, s⟩ ∧ c.LastFound n s := by
  induction n with
  | zero =>
      exact ⟨.empty, rfl, .inr ⟨rfl, fun k hk => absurd hk (Nat.not_lt_zero k)⟩⟩
  | succ n ih =>
      obtain ⟨s, hp, hkept⟩ := ih
      rw [pollTimes_succ, hp]
      cases hfound : c.collect n with
      | ok fresh =>
          exact ⟨fresh, congrArg Prod.snd (poll_of_ok hfound), .of_ok hfound⟩
      | error reason =>
          exact ⟨s, congrArg Prod.snd (poll_of_error hfound),
            hkept.of_error hfound⟩

end Provider

/-! ## Samples as metrics -/

namespace NameMap.Lists

variable {α : Type} {m : NameMap α} {listing : List (String × α)}

/-- Sorted by their names, the pairs stand as the map has them. -/
theorem mergeSort_eq (h : m.Lists listing) :
    (listing.mergeSort fun a b => decide (a.1 ≤ b.1)) = m.entries := by
  have hperm :=
    (List.mergeSort_perm listing fun a b => decide (a.1 ≤ b.1)).trans h.perm
  have hordered : m.entries.Pairwise fun a b => a.1 ≤ b.1 :=
    m.ascending.imp le_of_lt
  refine hperm.eq_of_pairwise ?_ (pairwise_mergeSort_key Prod.fst listing)
    hordered
  rintro ⟨name, a⟩ ⟨other, b⟩ ha hb hle hge
  obtain rfl : name = other := le_antisymm hle hge
  have hfound := find?_of_mem_entries (hperm.mem_iff.mp ha)
  rw [find?_of_mem_entries hb] at hfound
  rw [Option.some.inj hfound]

end NameMap.Lists

namespace Samples

/-- The batch lists the gauges, then the counters, both in strictly ascending
order of the names, with one metric for each sample. -/
def ListedBy (s : Samples) (batch : Batch) : Prop :=
  ∃ gauges counters, s.gauges.Lists gauges ∧ s.counters.Lists counters ∧
    gauges.Pairwise (fun a b => a.1 < b.1) ∧
      counters.Pairwise (fun a b => a.1 < b.1) ∧
    batch = (gauges.map fun g => Metric.gauge g.1 g.2) ++
      counters.map fun c => Metric.counter c.1 c.2

theorem listedBy_toBatch (s : Samples) : s.ListedBy s.toBatch :=
  ⟨s.gauges.entries, s.counters.entries, .entries _, .entries _,
    s.gauges.ascending, s.counters.ascending, rfl⟩

/-- The metrics of pairs that come in any order: the gauges, then the counters,
sorted by their names. -/
def sortedBatch (gauges : List (String × Binary64))
    (counters : List (String × Int64)) : Batch :=
  (gauges.mergeSort fun a b => decide (a.1 ≤ b.1)).map
      (fun g => Metric.gauge g.1 g.2) ++
    (counters.mergeSort fun a b => decide (a.1 ≤ b.1)).map
      fun c => Metric.counter c.1 c.2

theorem sortedBatch_eq {s : Samples} {gauges : List (String × Binary64)}
    {counters : List (String × Int64)} (hgauges : s.gauges.Lists gauges)
    (hcounters : s.counters.Lists counters) :
    sortedBatch gauges counters = s.toBatch := by
  rw [sortedBatch, hgauges.mergeSort_eq, hcounters.mergeSort_eq]
  rfl

end Samples

/-! ## All providers -/

namespace Providers

variable {collectors : List Collector} {polls : List Nat} {p : Providers}

/-- The places of the providers that are polled until an instant, as
often as they are. -/
def due (p : Providers) (later : Nat) : List Nat :=
  p.tickers.flatMap fun t =>
    List.replicate (t.ticks p.interval later) t.provider

/-- Providers that were polled, by hand or by their tickers, as often as
their places occur. -/
inductive Polled (collectors : List Collector) : List Nat → Providers → Prop
  | new (interval : Nat) : Polled collectors [] (.new interval collectors)
  | poll {polls : List Nat} {p : Providers}
      (hpolled : Polled collectors polls p) (index : Nat) :
    Polled collectors (polls ++ [index]) (p.poll index).2
  | start {polls : List Nat} {p : Providers}
      (hpolled : Polled collectors polls p) (now : Nat) :
    Polled collectors polls (p.start now)
  | elapse {polls : List Nat} {p : Providers}
      (hpolled : Polled collectors polls p) (later : Nat) :
      Polled collectors (polls ++ p.due later) (p.elapse later)
  | shutDown {polls : List Nat} {p : Providers}
      (hpolled : Polled collectors polls p) :
    Polled collectors polls p.shutDown

/-- The providers of collectors after polls. -/
def polledMembers (collectors : List Collector) (polls : List Nat) :
    List Provider :=
  collectors.mapIdx fun i c => (Provider.new c).pollTimes (polls.count i)

theorem modify_polledMembers (collectors : List Collector) (polls : List Nat)
    (i n : Nat) :
    (polledMembers collectors polls).modify i (·.pollTimes n) =
      polledMembers collectors (polls ++ List.replicate n i) := by
  apply List.ext_getElem?
  intro j
  simp only [polledMembers, List.getElem?_modify, List.getElem?_mapIdx,
    List.count_append, List.count_replicate, Option.map_eq_map, Option.map_map]
  by_cases hij : i = j
  · subst hij
    simp [Function.comp_def, Provider.pollTimes_add]
  · simp [Function.comp_def, hij]

theorem members_poll (p : Providers) (index : Nat) :
    (p.poll index).2.members = p.members.modify index (·.pollTimes 1) := by
  rw [List.modify_eq_set_getElem?, poll]
  cases p.members[index]? with
  | none => rfl
  | some provider => rfl

theorem members_elapse (h : p.members = polledMembers collectors polls)
    (later : Nat) :
    (p.elapse later).members = polledMembers collectors
      (polls ++ p.due later) := by
  have htickers (tickers : List Ticker) (polls : List Nat) :
      tickers.foldl
          (fun members t => members.modify t.provider fun provider =>
            provider.pollTimes (t.ticks p.interval later))
          (polledMembers collectors polls) =
        polledMembers collectors
          (polls ++ tickers.flatMap fun t =>
            List.replicate (t.ticks p.interval later) t.provider) := by
    induction tickers generalizing polls with
    | nil => rw [List.foldl_nil, List.flatMap_nil, List.append_nil]
    | cons t tickers ih =>
        rw [List.foldl_cons, modify_polledMembers, ih, List.flatMap_cons,
          List.append_assoc]
  change p.tickers.foldl _ p.members = _
  rw [h]
  exact htickers p.tickers polls

theorem Polled.members_eq (h : Polled collectors polls p) :
    p.members = polledMembers collectors polls := by
  induction h with
  | new interval =>
      apply List.ext_getElem?
      intro i
      simp only [Providers.new, polledMembers, List.getElem?_map,
        List.getElem?_mapIdx, List.count_nil]
      rfl
  | @poll polls p _ index ih =>
      rw [members_poll, ih]
      exact modify_polledMembers collectors polls index 1
  | start _ now ih => exact ih
  | elapse _ later ih => exact members_elapse ih later
  | shutDown _ ih => exact ih

/-- What the providers keep, in their order. -/
def kept (p : Providers) : List Samples := p.members.map Provider.latest

theorem metrics_eq (p : Providers) :
    p.metrics = p.kept.flatMap Samples.toBatch := by
  rw [metrics, kept, List.flatMap_map]

section Poll

variable {i : Nat} {provider : Provider}

theorem poll_eq (hprovider : p.members[i]? = some provider) :
    (p.poll i).1 = provider.poll.1 ∧
      (p.poll i).2.kept = p.kept.set i provider.poll.2.latest := by
  rw [poll, hprovider]
  exact ⟨rfl, List.map_set⟩

theorem poll_of_ok {found : Samples} (hprovider : p.members[i]? = some provider)
    (hfound : provider.collector.collect provider.polls = .ok found) :
    (p.poll i).1 = .ok () ∧ (p.poll i).2.kept = p.kept.set i found := by
  have hpoll := poll_eq hprovider
  rwa [Provider.poll_of_ok hfound] at hpoll

theorem poll_of_error {reason : String}
    (hprovider : p.members[i]? = some provider)
    (hreason : provider.collector.collect provider.polls = .error reason) :
    (p.poll i).1 = .error reason ∧ (p.poll i).2.kept = p.kept := by
  have hpoll := poll_eq hprovider
  rw [Provider.poll_of_error hreason] at hpoll
  have hlatest : p.kept[i]? = some provider.latest := by
    rw [kept, List.getElem?_map, hprovider, Option.map_some]
  obtain ⟨hi, hlatest⟩ := List.getElem?_eq_some_iff.mp hlatest
  refine ⟨hpoll.1, hpoll.2.trans ?_⟩
  rw [← hlatest, List.set_getElem_self]

end Poll

/-- The provider in a place keeps what the last successful one
of its polls found. -/
theorem Polled.exists_provider (h : Polled collectors polls p) {i : Nat}
    {c : Collector} (hc : collectors[i]? = some c) :
    ∃ s, p.members[i]? = some ⟨c, polls.count i, s⟩ ∧
      c.LastFound (polls.count i) s := by
  obtain ⟨s, hs, hkept⟩ := Provider.pollTimes_spec c (polls.count i)
  refine ⟨s, ?_, hkept⟩
  rw [h.members_eq, polledMembers, List.getElem?_mapIdx, hc,
    Option.map_some, hs]

/-- What providers give is the union of what the last successful poll of each
found, in the order of the providers.  Of each provider it lists the samples in
the one order that sorting gives them, in whatever order they come.  A poll that
fails changes nothing, and one that succeeds puts what it found in place of
everything that its provider kept. -/
theorem union_of_last_found (h : Polled collectors polls p) :
    ∃ kept : List Samples, kept.length = collectors.length ∧
      (∀ (i : Nat) (c : Collector), collectors[i]? = some c →
        ∃ s, kept[i]? = some s ∧ c.LastFound (polls.count i) s) ∧
      p.metrics = kept.flatMap Samples.toBatch ∧
      (∀ s : Samples, s.ListedBy s.toBatch ∧
        ∀ gauges counters, s.gauges.Lists gauges → s.counters.Lists counters →
          Samples.sortedBatch gauges counters = s.toBatch) ∧
      ∀ (i : Nat) (c : Collector), collectors[i]? = some c →
        (∀ reason, c.collect (polls.count i) = .error reason →
          (p.poll i).1 = .error reason ∧ (p.poll i).2.metrics = p.metrics) ∧
        ∀ found, c.collect (polls.count i) = .ok found →
          (p.poll i).1 = .ok () ∧
            (p.poll i).2.metrics =
              (kept.set i found).flatMap Samples.toBatch := by
  refine ⟨p.kept, ?_, fun i c hc => ?_, p.metrics_eq, fun s => ?_,
    fun i c hc => ?_⟩
  · rw [kept, List.length_map, h.members_eq, polledMembers, List.length_mapIdx]
  · obtain ⟨s, hs, hfound⟩ := h.exists_provider hc
    refine ⟨s, ?_, hfound⟩
    rw [kept, List.getElem?_map, hs, Option.map_some]
  · exact ⟨s.listedBy_toBatch, fun _ _ => Samples.sortedBatch_eq⟩
  · obtain ⟨s, hs, -⟩ := h.exists_provider hc
    constructor
    · intro reason hreason
      obtain ⟨hresult, hkept⟩ := poll_of_error hs hreason
      exact ⟨hresult, by rw [metrics_eq, metrics_eq, hkept]⟩
    · intro found hfound
      obtain ⟨hresult, hkept⟩ := poll_of_ok hs hfound
      exact ⟨hresult, by rw [metrics_eq, hkept]⟩

/-- Two providers are polled twice as time passes; the second poll of the first
one fails, and the third finds a gauge with another name. -/
theorem union_of_last_found_flaky :
    let found (n : Nat) : Samples :=
      .ofLists [(s!"only{n}", .ofNat n)] [("Polls", Int64.ofNat n)]
    let flaky : Collector :=
      ⟨"flaky", fun n => if n = 1 then .error "busy" else .ok (found n)⟩
    let steady : Collector := .synthetic fun _ => .zero
    let p := ((Providers.new 2000 [flaky, steady]).start 0).elapse 3000
    Polled [flaky, steady] [0, 0, 1, 1] p ∧
      ∃ kept : List Samples, p.metrics = kept.flatMap Samples.toBatch ∧
        (∃ s, kept[0]? = some s ∧ flaky.LastFound 2 s) ∧
        (p.poll 0).2.metrics =
        (kept.set 0 (found 2)).flatMap Samples.toBatch := by
  intro found flaky steady p
  have hnew : Polled [flaky, steady] [] (.new 2000 [flaky, steady]) := .new 2000
  have hdue : ((Providers.new 2000 [flaky, steady]).start 0).due 3000 =
      [0, 0, 1, 1] := by
    decide
  have hpolled := (hnew.start 0).elapse 3000
  rw [List.nil_append, hdue] at hpolled
  obtain ⟨kept, -, hkept, hmetrics, -, hpoll⟩ := union_of_last_found hpolled
  exact ⟨hpolled, kept, hmetrics, hkept 0 flaky rfl,
    ((hpoll 0 flaky rfl).2 (found 2) rfl).2⟩

end Providers

end Telemetry

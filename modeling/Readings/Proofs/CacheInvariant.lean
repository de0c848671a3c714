import Mathlib.Algebra.BigOperators.Group.Finset.Basic
import Readings.Proofs.CacheRoom
import Readings.Proofs.Recognition

/-! What holds of a cache after any operations, with any arguments and at any times. An operation either
stores one entry, with the next number, or only drops entries and counts hits; so the entries of a
grammar stay few, in the order of their numbers, and different from each other. -/

namespace Readings

inductive CacheOperation where
  | insert (key : GrammarKey) (tokens : List Token) (fingerprints : List Fingerprint)
      (result : ParseResult)
  | lookup (key : GrammarKey) (fingerprints : List Fingerprint)
  | purgeExpired
  | invalidateOtherVersions (key : GrammarKey)
  | clear
  | resetStats

structure CacheRequest where
  now : Duration
  operation : CacheOperation

/-- What stays the same while an entry is kept. -/
def CacheEntry.withoutHits (entry : CacheEntry) : CacheEntry := { entry with hitCount := 0 }

namespace SessionCache

def perform (cache : SessionCache) (request : CacheRequest) : SessionCache :=
  match request.operation with
  | .insert key tokens fingerprints result =>
    (cache.insert request.now key tokens fingerprints result).1
  | .lookup key fingerprints => (cache.lookup request.now key fingerprints).1
  | .purgeExpired => cache.purgeExpired request.now
  | .invalidateOtherVersions key => cache.invalidateOtherVersions key
  | .clear => cache.clear
  | .resetStats => cache.resetStats

def performAll (cache : SessionCache) (requests : List CacheRequest) : SessionCache :=
  requests.foldl perform cache

def names (cache : SessionCache) : List String := (cache.entries.map (·.grammar.name)).dedup

/-- The entries of each grammar that has some, under its name. -/
def lists (cache : SessionCache) : List (String × List CacheEntry) :=
  cache.names.map fun name => (name, cache.entriesFor name)

/-- The entries of one grammar, as a cache holds them under its name. -/
structure IsEntryList (config : CacheConfig) (name : String) (entries : List CacheEntry) : Prop where
  present : entries ≠ []
  bounded : entries.length ≤ max config.maxEntries 1
  named : ∀ entry ∈ entries, entry.grammar.name = name
  distinct : (entries.map (·.fingerprints)).Nodup
  ascending : (entries.map (·.sequence)).Pairwise (· < ·)
  within : ∀ entry ∈ entries, entry.result.chart.isLimitExceeded = false

/-- A later cache to which no entry was added. -/
structure IsReduced (cache next : SessionCache) : Prop where
  config : next.config = cache.config
  sequence : next.nextSequence = cache.nextSequence
  kept : (next.entries.map (·.withoutHits)).Sublist (cache.entries.map (·.withoutHits))
  counted : cache.stats.entries = cache.size → next.stats.entries = next.size

/-- What holds of all entries together, and carries over from one operation to the next. -/
structure IsRegular (config : CacheConfig) (cache : SessionCache) : Prop where
  configured : cache.config = config
  distinct : (cache.entries.map fun entry => (entry.grammar.name, entry.fingerprints)).Nodup
  ascending : (cache.entries.map (·.sequence)).Pairwise (· < ·)
  numbered : ∀ sequence ∈ cache.entries.map (·.sequence), sequence < cache.nextSequence
  bounded : ∀ name, (cache.entries.map (·.grammar.name)).countP (· == name) ≤ max config.maxEntries 1
  within : ∀ exceeded ∈ cache.entries.map (·.result.chart.isLimitExceeded), exceeded = false
  counted : cache.stats.entries = cache.size

/-- No entry was made later than one behind it, or than now. -/
structure IsAged (now : Duration) (cache : SessionCache) : Prop where
  ascending : (cache.entries.map (·.createdAt)).Pairwise (· ≤ ·)
  reached : ∀ created ∈ cache.entries.map (·.createdAt), created ≤ now

variable {config : CacheConfig} {cache next : SessionCache} {entry : CacheEntry} {now : Duration}

theorem countP_map_name (name : String) (entries : List CacheEntry) :
    (entries.map (·.grammar.name)).countP (· == name) =
      entries.countP (·.grammar.name == name) := by
  rw [List.countP_map]
  rfl

theorem store_sublist (cache : SessionCache) (entry : CacheEntry) :
    (cache.store entry).entries.Sublist
      ((cache.entries.filter fun known =>
        known.grammar.name != entry.grammar.name || known.fingerprints != entry.fingerprints) ++
          [entry]) :=
  evict_sublist _ _ _

theorem store_sublist_concat (cache : SessionCache) (entry : CacheEntry) :
    (cache.store entry).entries.Sublist (cache.entries ++ [entry]) :=
  (store_sublist cache entry).trans (List.filter_sublist.append_right _)

theorem forall_map_store {α : Type} {known : CacheEntry → α} {property : α → Prop}
    (old : ∀ value ∈ cache.entries.map known, property value) (new : property (known entry)) :
    ∀ value ∈ (cache.store entry).entries.map known, property value := by
  intro value member
  have listed := ((store_sublist_concat cache entry).map known).subset member
  rw [List.map_append, List.mem_append] at listed
  rcases listed with there | last
  · exact old value there
  · exact List.mem_singleton.mp last ▸ new

theorem pairwise_map_concat {α : Type} {known : CacheEntry → α} {before : α → α → Prop}
    (old : (cache.entries.map known).Pairwise before)
    (new : ∀ value ∈ cache.entries.map known, before value (known entry)) :
    ((cache.entries ++ [entry]).map known).Pairwise before := by
  rw [List.map_append, List.pairwise_append]
  refine ⟨old, List.pairwise_singleton _ _, ?_⟩
  intro value member other last
  exact List.mem_singleton.mp last ▸ new value member

theorem pairwise_map_store {α : Type} {known : CacheEntry → α} {before : α → α → Prop}
    (old : (cache.entries.map known).Pairwise before)
    (new : ∀ value ∈ cache.entries.map known, before value (known entry)) :
    ((cache.store entry).entries.map known).Pairwise before :=
  (pairwise_map_concat old new).sublist ((store_sublist_concat cache entry).map known)

namespace IsReduced

theorem of_sublist (config : next.config = cache.config)
    (sequence : next.nextSequence = cache.nextSequence)
    (kept : next.entries.Sublist cache.entries) (counted : next.stats.entries = next.size) :
    cache.IsReduced next :=
  ⟨config, sequence, kept.map _, fun _ => counted⟩

theorem trans {last : SessionCache} (first : cache.IsReduced next) (second : next.IsReduced last) :
    cache.IsReduced last :=
  ⟨second.config.trans first.config, second.sequence.trans first.sequence,
    second.kept.trans first.kept, fun counted => second.counted (first.counted counted)⟩

theorem withStats {stats : CacheStats} (same : stats.entries = cache.stats.entries) :
    cache.IsReduced { cache with stats } :=
  ⟨rfl, rfl, List.Sublist.refl _, fun counted => same.trans counted⟩

theorem recordHit {stats : CacheStats} (name : String) (fingerprints : List Fingerprint)
    (same : stats.entries = cache.stats.entries) :
    cache.IsReduced
      { cache with entries := SessionCache.recordHit name fingerprints cache.entries, stats } where
  config := rfl
  sequence := rfl
  kept := by
    rw [map_recordHit CacheEntry.withoutHits (fun _ => rfl)]
  counted := fun counted =>
    same.trans (counted.trans (length_recordHit name fingerprints cache.entries).symm)

theorem purgeExpired (cache : SessionCache) (now : Duration) :
    cache.IsReduced (cache.purgeExpired now) :=
  of_sublist rfl rfl List.filter_sublist rfl

theorem invalidateOtherVersions (cache : SessionCache) (key : GrammarKey) :
    cache.IsReduced (cache.invalidateOtherVersions key) :=
  of_sublist rfl rfl List.filter_sublist rfl

theorem lookupFresh (cache : SessionCache) (key : GrammarKey) (fingerprints : List Fingerprint) :
    cache.IsReduced (cache.lookupFresh key fingerprints).1 := by
  cases defective : firstError? (cache.entriesFor key.name) with
  | some error =>
    simp only [SessionCache.lookupFresh, defective]
    exact withStats rfl
  | none =>
    have looked := lookupFresh_looked defective fingerprints
    generalize cache.lookupFresh key fingerprints = outcome at looked
    cases looked with
    | found has => exact recordHit key.name fingerprints rfl
    | absent lacks partly counted => exact withStats counted.entries_eq

theorem refresh (cache : SessionCache) (now : Duration) (key : GrammarKey) :
    cache.IsReduced (cache.refresh now key) :=
  (purgeExpired cache now).trans (invalidateOtherVersions _ key)

theorem lookup (cache : SessionCache) (now : Duration) (key : GrammarKey)
    (fingerprints : List Fingerprint) : cache.IsReduced (cache.lookup now key fingerprints).1 :=
  (refresh cache now key).trans (lookupFresh _ key fingerprints)

theorem sublist_map {α : Type} (reduced : cache.IsReduced next) (known : CacheEntry → α)
    (same : ∀ entry : CacheEntry, known entry.withoutHits = known entry) :
    (next.entries.map known).Sublist (cache.entries.map known) := by
  have through : ∀ entries : List CacheEntry,
      (entries.map (·.withoutHits)).map known = entries.map known := by
    intro entries
    rw [List.map_map]
    exact List.map_congr_left fun entry _ => same entry
  rw [← through next.entries, ← through cache.entries]
  exact reduced.kept.map known

end IsReduced

/-- An operation adds no entry, or stores one that is made now and is within the limits. -/
theorem perform_cases (cache : SessionCache) (request : CacheRequest) :
    cache.IsReduced (cache.perform request) ∨
      ∃ entry : CacheEntry, cache.perform request = cache.store entry ∧
        entry.sequence = cache.nextSequence ∧ entry.createdAt = request.now ∧
        entry.result.chart.isLimitExceeded = false := by
  obtain ⟨now, operation⟩ := request
  cases operation with
  | insert key tokens fingerprints result =>
    simp only [perform, SessionCache.insert]
    split
    next => exact Or.inl (IsReduced.withStats rfl)
    next within => exact Or.inr ⟨_, rfl, rfl, rfl, by simpa using within⟩
  | lookup key fingerprints => exact Or.inl (IsReduced.lookup cache now key fingerprints)
  | purgeExpired => exact Or.inl (IsReduced.purgeExpired cache now)
  | invalidateOtherVersions key => exact Or.inl (IsReduced.invalidateOtherVersions cache key)
  | clear => exact Or.inl (IsReduced.of_sublist rfl rfl (List.nil_sublist _) rfl)
  | resetStats => exact Or.inl (IsReduced.withStats rfl)

namespace IsRegular

theorem empty (config : CacheConfig) : (SessionCache.empty config).IsRegular config where
  configured := rfl
  distinct := List.nodup_nil
  ascending := List.Pairwise.nil
  numbered := fun _ member => absurd member List.not_mem_nil
  bounded := fun _ => Nat.zero_le _
  within := fun _ member => absurd member List.not_mem_nil
  counted := rfl

theorem reduced (regular : cache.IsRegular config) (reduced : cache.IsReduced next) :
    next.IsRegular config where
  configured := reduced.config.trans regular.configured
  distinct := regular.distinct.sublist (reduced.sublist_map _ fun _ => rfl)
  ascending := regular.ascending.sublist (reduced.sublist_map _ fun _ => rfl)
  numbered := fun sequence member => by
    rw [reduced.sequence]
    exact regular.numbered sequence ((reduced.sublist_map _ fun _ => rfl).subset member)
  bounded := fun name =>
    Nat.le_trans (reduced.sublist_map _ fun _ => rfl).countP_le (regular.bounded name)
  within := fun exceeded member =>
    regular.within exceeded ((reduced.sublist_map _ fun _ => rfl).subset member)
  counted := reduced.counted regular.counted

theorem store (regular : cache.IsRegular config) (last : entry.sequence = cache.nextSequence)
    (within : entry.result.chart.isLimitExceeded = false) : (cache.store entry).IsRegular config where
  configured := regular.configured
  distinct := by
    refine List.Nodup.sublist ((store_sublist cache entry).map _) ?_
    rw [List.map_append, List.nodup_append']
    refine ⟨regular.distinct.sublist (List.filter_sublist.map _), List.nodup_singleton _, ?_⟩
    rw [List.map_singleton, List.disjoint_singleton]
    intro same
    obtain ⟨known, member, equal⟩ := List.mem_map.mp same
    obtain ⟨name, fingerprints⟩ := Prod.mk.inj equal
    simpa [name, fingerprints] using (List.mem_filter.mp member).2
  ascending := pairwise_map_store regular.ascending fun sequence member =>
    Nat.lt_of_lt_of_eq (regular.numbered sequence member) last.symm
  numbered := forall_map_store (fun sequence member => Nat.lt_succ_of_lt (regular.numbered sequence member))
    (Nat.lt_succ_of_le (Nat.le_of_eq last))
  bounded := fun name => by
    have room := regular.bounded name
    rw [countP_map_name, ← regular.configured] at room ⊢
    exact countP_store_le entry room
  within := forall_map_store regular.within within
  counted := rfl

theorem nodup_concat (regular : cache.IsRegular config) (last : entry.sequence = cache.nextSequence) :
    ((cache.entries ++ [entry]).map (·.sequence)).Nodup :=
  (pairwise_map_concat regular.ascending fun sequence member =>
    last ▸ regular.numbered sequence member).imp Nat.ne_of_lt

theorem perform (regular : cache.IsRegular config) (request : CacheRequest) :
    (cache.perform request).IsRegular config := by
  rcases perform_cases cache request with fewer | ⟨entry, stored, last, -, within⟩
  · exact regular.reduced fewer
  · rw [stored]
    exact regular.store last within

theorem performAll (regular : cache.IsRegular config) (requests : List CacheRequest) :
    (cache.performAll requests).IsRegular config := by
  induction requests generalizing cache with
  | nil => exact regular
  | cons request requests ih => exact ih (regular.perform request)

theorem distinct_entriesFor (regular : cache.IsRegular config) (name : String) :
    ((cache.entriesFor name).map (·.fingerprints)).Nodup := by
  have distinct := List.pairwise_map.mp regular.distinct
  refine List.pairwise_map.mpr ((distinct.sublist List.filter_sublist).imp_of_mem ?_)
  intro entry other member inside different same
  refine different (Prod.ext ?_ same)
  exact (mem_entriesFor.mp member).2.trans (mem_entriesFor.mp inside).2.symm

theorem isEntryList (regular : cache.IsRegular config) {name : String} (listed : name ∈ cache.names) :
    IsEntryList config name (cache.entriesFor name) where
  present := by
    obtain ⟨entry, member, named⟩ := List.mem_map.mp (List.mem_dedup.mp listed)
    exact List.ne_nil_of_mem (mem_entriesFor.mpr ⟨member, named⟩)
  bounded := by
    rw [length_entriesFor, ← countP_map_name]
    exact regular.bounded name
  named := fun entry member => (mem_entriesFor.mp member).2
  distinct := regular.distinct_entriesFor name
  ascending := regular.ascending.sublist (List.filter_sublist.map _)
  within := fun entry member =>
    regular.within _ (List.mem_map_of_mem (mem_entriesFor.mp member).1)

end IsRegular

namespace IsAged

theorem perform (aged : cache.IsAged now) {request : CacheRequest} (later : now ≤ request.now) :
    (cache.perform request).IsAged request.now := by
  have reached : ∀ created ∈ cache.entries.map (·.createdAt), created ≤ request.now :=
    fun created member => Nat.le_trans (aged.reached created member) later
  rcases perform_cases cache request with fewer | ⟨entry, stored, -, made, -⟩
  · have kept := fewer.sublist_map (·.createdAt) fun _ => rfl
    exact ⟨aged.ascending.sublist kept, fun created member => reached created (kept.subset member)⟩
  · rw [stored]
    rw [← made] at reached
    exact ⟨pairwise_map_store aged.ascending reached,
      made ▸ forall_map_store reached (Nat.le_refl entry.createdAt)⟩

theorem performAll {requests : List CacheRequest} (aged : cache.IsAged now)
    (ordered : (now :: requests.map (·.now)).Pairwise (· ≤ ·)) :
    ∃ last, (cache.performAll requests).IsAged last := by
  induction requests generalizing cache now with
  | nil => exact ⟨now, aged⟩
  | cons request requests ih =>
    rw [List.map_cons, List.pairwise_cons] at ordered
    exact ih (aged.perform (ordered.1 _ List.mem_cons_self)) ordered.2

end IsAged

theorem nodup_names (cache : SessionCache) : cache.names.Nodup := List.nodup_dedup _

theorem mem_names_iff {name : String} : name ∈ cache.names ↔ cache.entriesFor name ≠ [] := by
  rw [names, List.mem_dedup, List.mem_map, Ne, List.eq_nil_iff_forall_not_mem]
  simp [mem_entriesFor]

/-- The lists hold every entry once. -/
theorem countP_eq_sum_lists (cache : SessionCache) (p : CacheEntry → Bool) :
    cache.entries.countP p = (cache.lists.map (·.2.countP p)).sum := by
  let known := (cache.entries.filter p).map (·.grammar.name)
  have covered : ∀ name ∈ (known : Multiset String), name ∈ cache.names.toFinset := by
    intro name member
    rw [List.mem_toFinset, names, List.mem_dedup]
    exact (List.filter_sublist.map _).subset (Multiset.mem_coe.mp member)
  have counted : (cache.names.map known.count).sum = known.length := by
    rw [← List.sum_toFinset _ cache.nodup_names]
    simpa only [Multiset.coe_count, Multiset.coe_card] using Multiset.sum_count_eq_card covered
  rw [List.countP_eq_length_filter, ← List.length_map (·.grammar.name), ← counted, lists, List.map_map]
  refine congrArg List.sum (List.map_congr_left fun name _ => ?_)
  simp only [known, Function.comp_apply, entriesFor, List.count_eq_countP, List.countP_map,
    List.countP_filter]
  exact List.countP_congr fun entry _ => by simp [and_comm]

theorem size_eq_sum_lists (cache : SessionCache) :
    cache.size = (cache.lists.map (·.2.length)).sum := by
  simpa only [List.countP_true, size] using cache.countP_eq_sum_lists fun _ => true

def storeSum (now : Duration) (count : Nat) : CacheRequest :=
  let tokens := threeOnes.toList.take count
  ⟨now, .insert sums.key tokens (Fingerprint.ofTokens tokens)
    ⟨Chart.build sums {} tokens.toArray, default⟩⟩

end SessionCache

end Readings

import AntiEntropator.Profile.Groups
import AntiEntropator.Profile.HashCap
import AntiEntropator.Profile.Walk
import AntiEntropator.Redundancy

/-!
# Reclaimable bytes

Files with one content have one size and one quick hash, so the groups the
estimate counts are unions of content classes.  All but one file of each group
is at least all but one file of each content, and at most all hashed files.
-/

namespace AntiEntropator.Profile

open Capped Grouping Redundancy

/-- The bytes of all but one file of each group. -/
def redundantBytes (groups : List ((UInt64 × String) × List String)) : Nat :=
  (groups.map fun group => (group.2.length - 1) * group.1.1.toNat).sum

/-- The bytes of all but one file of each content. -/
def duplicateBytes (contents : List (List UInt8)) : Nat := redundant List.length contents

theorem redundantBytes_filter (groups : List ((UInt64 × String) × List String)) :
    redundantBytes (groups.filter fun group => 1 < group.2.length) = redundantBytes groups := by
  induction groups with
  | nil => rfl
  | cons group rest inductionHypothesis =>
      unfold redundantBytes at inductionHypothesis ⊢
      by_cases large : 1 < group.2.length
      · simp [large, inductionHypothesis]
      · have single : group.2.length - 1 = 0 := by omega
        simp [large, inductionHypothesis, single]

/-- What the groups of some items add is the redundant weight of their keys. -/
theorem redundantBytes_group (items : List ((UInt64 × String) × String)) :
    redundantBytes (group items) =
      redundant (fun key => key.1.toNat) (items.map Prod.fst) := by
  have present : (keys items).toFinset = (items.map Prod.fst).toFinset := by
    ext key
    rw [List.mem_toFinset, List.mem_toFinset, mem_keys_iff]
  rw [redundant, ← present, List.sum_toFinset _ (nodup_keys items), redundantBytes, group_eq,
    List.map_map]
  congr 1
  apply List.map_congr_left
  intro key _
  simp [length_under]

theorem redundantBytes_confirmedGroups
    (groupOrder : IterationOrder ((UInt64 × String) × List String))
    (items : List ((UInt64 × String) × String)) :
    redundantBytes (confirmedGroups groupOrder (group items)) =
      redundant (fun key => key.1.toNat) (items.map Prod.fst) := by
  rw [← redundantBytes_group, ← redundantBytes_filter (group items)]
  exact ((confirmedGroups_perm groupOrder (group items)).map _).sum_nat

/-! ## Groups are unions of content classes -/

def prefixKey (prefixHash : List UInt8 → String) (content : List UInt8) : UInt64 × String :=
  (UInt64.ofNat content.length, prefixHash (content.take (64 * 1024)))

def hashedOf (quickHash : String → Option String) (entries : List (DirEntry × UInt64)) :
    List (DirEntry × UInt64) :=
  entries.filter fun entry => (quickHash (OsString.toStringLossy entry.1.path)).isSome

def contentsOf (content : List UInt8 → List UInt8) (entries : List (DirEntry × UInt64)) :
    List (List UInt8) := entries.map fun entry => content entry.1.path

/-- The files have their contents while they are looked at, and the quick hash is
one of the first 64 KiB. -/
structure Faithful (quickHash : String → Option String) (content : List UInt8 → List UInt8)
    (prefixHash : List UInt8 → String) (hashed : List (DirEntry × UInt64)) : Prop where
  stable : ∀ entry ∈ hashed, (content entry.1.path).length = entry.2.toNat
  prefixOnly : ∀ entry ∈ hashed, quickHash (OsString.toStringLossy entry.1.path) =
    some (prefixHash ((content entry.1.path).take (64 * 1024)))

section Contents

variable {quickHash : String → Option String} {content : List UInt8 → List UInt8}
  {prefixHash : List UInt8 → String} {entries : List (DirEntry × UInt64)}

theorem Faithful.key (faithful : Faithful quickHash content prefixHash entries)
    {entry : DirEntry × UInt64} (member : entry ∈ entries) :
    hashedItem? quickHash (sized entry) =
      some (prefixKey prefixHash (content entry.1.path), OsString.toStringLossy entry.1.path) := by
  rw [prefixKey, faithful.stable entry member, UInt64.ofNat_toNat]
  simp [hashedItem?, sized, faithful.prefixOnly entry member]

theorem filterMap_hashedOf (quickHash : String → Option String)
    (entries : List (DirEntry × UInt64)) :
    (entries.map sized).filterMap (hashedItem? quickHash) =
      ((hashedOf quickHash entries).map sized).filterMap (hashedItem? quickHash) := by
  induction entries with
  | nil => rfl
  | cons entry rest inductionHypothesis =>
      cases outcome : quickHash (OsString.toStringLossy entry.1.path) with
      | none =>
          have failed : hashedItem? quickHash (sized entry) = none := by
            simp [hashedItem?, sized, outcome]
          simpa [hashedOf, outcome, failed] using inductionHypothesis
      | some hash =>
          have succeeded : hashedItem? quickHash (sized entry) =
              some ((entry.2, hash), OsString.toStringLossy entry.1.path) := by
            simp [hashedItem?, sized, outcome]
          simpa [hashedOf, outcome, succeeded] using inductionHypothesis

theorem map_fst_hashedItems
    (faithful : Faithful quickHash content prefixHash (hashedOf quickHash entries)) :
    ((entries.map sized).filterMap (hashedItem? quickHash)).map Prod.fst =
      (contentsOf content (hashedOf quickHash entries)).map (prefixKey prefixHash) := by
  have keyed : (hashedOf quickHash entries).filterMap (hashedItem? quickHash ∘ sized) =
      (hashedOf quickHash entries).filterMap (some ∘ fun entry =>
        (prefixKey prefixHash (content entry.1.path), OsString.toStringLossy entry.1.path)) :=
    List.filterMap_congr fun _ member => faithful.key member
  rw [filterMap_hashedOf, List.filterMap_map, keyed, List.filterMap_eq_map, contentsOf,
    List.map_map, List.map_map]
  rfl

theorem Faithful.weight (faithful : Faithful quickHash content prefixHash entries) :
    ∀ bytes ∈ contentsOf content entries, (prefixKey prefixHash bytes).1.toNat = bytes.length := by
  intro bytes member
  obtain ⟨entry, hashed, rfl⟩ := List.mem_map.mp member
  rw [prefixKey, faithful.stable entry hashed, UInt64.ofNat_toNat]

end Contents

/-! ## Machine arithmetic -/

theorem toNat_groupBytes {group : (UInt64 × String) × List String} (large : 1 < group.2.length)
    (small : group.2.length * group.1.1.toNat < 2 ^ 64) :
    (groupBytes group).toNat = (group.2.length - 1) * group.1.1.toNat := by
  rcases Nat.eq_zero_or_pos group.1.1.toNat with empty | positive
  · simp [groupBytes, UInt64.toNat_mul, empty]
  · have count : group.2.length ≤ group.2.length * group.1.1.toNat :=
      Nat.le_mul_of_pos_right _ positive
    have fewer : (group.2.length - 1) * group.1.1.toNat ≤ group.2.length * group.1.1.toNat :=
      Nat.mul_le_mul_right _ (Nat.sub_le _ 1)
    have exact : (UInt64.ofNat group.2.length).toNat = group.2.length :=
      UInt64.toNat_ofNat_of_lt' (by simpa using Nat.lt_of_le_of_lt count small)
    have less : (UInt64.ofNat group.2.length - 1).toNat = group.2.length - 1 := by
      rw [UInt64.toNat_sub_of_le, exact]
      · rfl
      · rw [UInt64.le_iff_toNat_le, exact]
        exact Nat.le_of_lt large
    rw [groupBytes, UInt64.toNat_mul, less, Nat.mod_eq_of_lt (Nat.lt_of_le_of_lt fewer small)]

theorem toNat_foldl_groupBytes {groups : List ((UInt64 × String) × List String)} (start : UInt64)
    (exact : ∀ group ∈ groups,
      (groupBytes group).toNat = (group.2.length - 1) * group.1.1.toNat)
    (small : start.toNat + redundantBytes groups < 2 ^ 64) :
    (groups.foldl (fun bytes group => bytes + groupBytes group) start).toNat =
      start.toNat + redundantBytes groups := by
  induction groups generalizing start with
  | nil => simp [redundantBytes]
  | cons group rest inductionHypothesis =>
      obtain ⟨here, later⟩ := List.forall_mem_cons.mp exact
      have split : redundantBytes (group :: rest) =
          (group.2.length - 1) * group.1.1.toNat + redundantBytes rest := by
        simp [redundantBytes]
      have added : (start + groupBytes group).toNat =
          start.toNat + (group.2.length - 1) * group.1.1.toNat := by
        rw [UInt64.toNat_add, here, Nat.mod_eq_of_lt (by omega)]
      rw [List.foldl_cons, inductionHypothesis _ later (by omega), added, split, Nat.add_assoc]

/-! ## Totals -/

theorem totalSize_le_of_subperm {files others : List (UInt64 × String)}
    (part : files.Subperm others) : totalSize files ≤ totalSize others := by
  obtain ⟨arranged, same, sublist⟩ := part
  have equal : totalSize arranged = totalSize files := (same.map _).sum_nat
  rw [← equal]
  exact (sublist.map _).sum_le_sum fun _ _ => Nat.zero_le _

theorem size_group_le {items : List ((UInt64 × String) × String)}
    {entry : (UInt64 × String) × List String} (member : entry ∈ group items) :
    entry.2.length * entry.1.1.toNat ≤ (items.map fun item => item.1.1.toNat).sum := by
  rw [group_eq] at member
  obtain ⟨key, -, rfl⟩ := List.mem_map.mp member
  have own : ((items.filter fun item => item.1 = key).map fun item => item.1.1.toNat).sum =
      (under key items).length * key.1.toNat := by
    rw [List.map_congr_left (g := fun _ => key.1.toNat)]
    · simp [under, List.map_const']
    · intro item kept
      rw [of_decide_eq_true (List.mem_filter.mp kept).2]
  rw [← own]
  exact ((List.filter_sublist).map _).sum_le_sum fun _ _ => Nat.zero_le _

theorem candidateFiles_subperm (order : IterationOrder (UInt64 × List String))
    (files : List (UInt64 × String)) :
    (candidateFiles (sizeCandidates order (group files))).Subperm files := by
  have part : (candidateFiles (sizeCandidates order (group files))).Sublist
      (ungroup (order.arrange (group files))) := List.filter_sublist.flatMap _
  exact part.subperm.trans (((order.perm _).flatMap_right _).trans (ungroup_group files)).subperm

theorem sum_hashedItems_le (quickHash : String → Option String) (files : List (UInt64 × String)) :
    ((files.filterMap (hashedItem? quickHash)).map fun item => item.1.1.toNat).sum ≤
      totalSize files := by
  induction files with
  | nil => exact Nat.le_refl _
  | cons file rest inductionHypothesis =>
      unfold totalSize at inductionHypothesis ⊢
      cases outcome : quickHash file.2 with
      | none =>
          simp only [List.filterMap_cons, hashedItem?, outcome, Option.map_none, List.map_cons,
            List.sum_cons]
          exact Nat.le_trans inductionHypothesis (Nat.le_add_left _ _)
      | some hash =>
          simp only [List.filterMap_cons, hashedItem?, outcome, Option.map_some, List.map_cons,
            List.sum_cons]
          exact Nat.add_le_add_left inductionHypothesis _

/-! ## The bound -/

section Bound

variable {quickHash : String → Option String} {content : List UInt8 → List UInt8}
  {prefixHash : List UInt8 → String} {entries : List (DirEntry × UInt64)}
  (faithful : Faithful quickHash content prefixHash (hashedOf quickHash entries))
  (groupOrder : IterationOrder ((UInt64 × String) × List String))

include faithful

theorem redundantBytes_contents :
    redundantBytes (confirmedGroups groupOrder
        (group ((entries.map sized).filterMap (hashedItem? quickHash)))) =
      redundant (fun key => key.1.toNat)
        ((contentsOf content (hashedOf quickHash entries)).map (prefixKey prefixHash)) := by
  rw [redundantBytes_confirmedGroups, map_fst_hashedItems faithful]

theorem duplicateBytes_le : duplicateBytes (contentsOf content (hashedOf quickHash entries)) ≤
    redundantBytes (confirmedGroups groupOrder
      (group ((entries.map sized).filterMap (hashedItem? quickHash)))) := by
  rw [redundantBytes_contents faithful, duplicateBytes, ← redundant_congr faithful.weight]
  exact redundant_le_map (prefixKey prefixHash) (fun key => key.1.toNat) _

/-- Contents that are told apart by size and quick hash make up groups of their own. -/
theorem redundantBytes_eq
    (apart : ∀ first ∈ hashedOf quickHash entries, ∀ second ∈ hashedOf quickHash entries,
      first.2 = second.2 → quickHash (OsString.toStringLossy first.1.path) =
        quickHash (OsString.toStringLossy second.1.path) →
      content first.1.path = content second.1.path) :
    redundantBytes (confirmedGroups groupOrder
        (group ((entries.map sized).filterMap (hashedItem? quickHash)))) =
      duplicateBytes (contentsOf content (hashedOf quickHash entries)) := by
  rw [redundantBytes_contents faithful, duplicateBytes, ← redundant_congr faithful.weight]
  apply redundant_map_of_injOn _ fun key : UInt64 × String => key.1.toNat
  intro _ firstMember _ secondMember same
  obtain ⟨first, firstHashed, rfl⟩ := List.mem_map.mp firstMember
  obtain ⟨second, secondHashed, rfl⟩ := List.mem_map.mp secondMember
  apply apart first firstHashed second secondHashed
  · have sizes : (prefixKey prefixHash (content first.1.path)).1.toNat =
        (prefixKey prefixHash (content second.1.path)).1.toNat := by rw [same]
    rw [faithful.weight _ firstMember, faithful.weight _ secondMember,
      faithful.stable first firstHashed, faithful.stable second secondHashed] at sizes
    exact UInt64.toNat_inj.mp sizes
  · rw [faithful.prefixOnly first firstHashed, faithful.prefixOnly second secondHashed]
    exact congrArg (fun key => some key.2) same

theorem redundantBytes_le : redundantBytes (confirmedGroups groupOrder
      (group ((entries.map sized).filterMap (hashedItem? quickHash)))) ≤
    ((contentsOf content (hashedOf quickHash entries)).map List.length).sum := by
  rw [redundantBytes_contents faithful, ← List.map_congr_left faithful.weight]
  have bound := redundant_le_sum (fun key : UInt64 × String => key.1.toNat)
    ((contentsOf content (hashedOf quickHash entries)).map (prefixKey prefixHash))
  rwa [List.map_map] at bound

end Bound

/-- Below 2^64 no product and no partial sum of the estimate wraps. -/
theorem toNat_reclaimable (quickHash : String → Option String) {files : List (UInt64 × String)}
    (groupOrder : IterationOrder ((UInt64 × String) × List String))
    (small : totalSize files < 2 ^ 64) :
    (∀ entry ∈ confirmedGroups groupOrder (group (files.filterMap (hashedItem? quickHash))),
      (groupBytes entry).toNat = (entry.2.length - 1) * entry.1.1.toNat) ∧
    ((confirmedGroups groupOrder (group (files.filterMap (hashedItem? quickHash)))).foldl
        (fun bytes group => bytes + groupBytes group) 0).toNat =
      redundantBytes (confirmedGroups groupOrder
        (group (files.filterMap (hashedItem? quickHash)))) := by
  have sizes := sum_hashedItems_le quickHash files
  have products : ∀ entry ∈ confirmedGroups groupOrder
      (group (files.filterMap (hashedItem? quickHash))),
      (groupBytes entry).toNat = (entry.2.length - 1) * entry.1.1.toNat := by
    intro entry member
    obtain ⟨grouped, large⟩ := List.mem_filter.mp ((confirmedGroups_perm groupOrder _).subset member)
    have own := size_group_le grouped
    exact toNat_groupBytes (of_decide_eq_true large) (by omega)
  have bound := redundant_le_sum (fun key : UInt64 × String => key.1.toNat)
    ((files.filterMap (hashedItem? quickHash)).map Prod.fst)
  rw [← redundantBytes_confirmedGroups groupOrder, List.map_map] at bound
  have sum := toNat_foldl_groupBytes 0 products (by
    simpa using Nat.lt_of_le_of_lt (Nat.le_trans bound sizes) small)
  exact ⟨products, by simpa using sum⟩

theorem sizedFiles_sublist (options : ScanOptions) (walk : Walk) :
    (sizedFiles options walk).Sublist (regularFiles walk) := by
  unfold sizedFiles
  split
  · exact List.filter_sublist
  · exact List.nil_sublist _

theorem attempted_subperm (table : CaseTable) (probes : Probes) (options : ScanOptions)
    (sizeOrder : IterationOrder (UInt64 × List String)) (root : List UInt8) (walk : Walk) :
    (attempted (hashable probes.quickHash) options.maxHashFiles (candidateFiles (sizeCandidates
      sizeOrder (scanWalk table probes options root walk).bySize))).Subperm
      (sizedFiles options walk) := by
  have candidates := candidateFiles_subperm sizeOrder (sizedFiles options walk)
  rw [← bySize_scanWalk table probes options root walk] at candidates
  have tried := attempted_prefix (hashable probes.quickHash) options.maxHashFiles
    (candidateFiles (sizeCandidates sizeOrder (scanWalk table probes options root walk).bySize))
  exact tried.sublist.subperm.trans candidates

/-! ## The files behind the paths -/

/-- The entries of the candidate files, in the order of the loop. -/
def candidateEntries (candidates : List (UInt64 × List String))
    (entries : List (DirEntry × UInt64)) : List (DirEntry × UInt64) :=
  candidates.flatMap fun group => entries.filter fun entry => entry.2 = group.1

theorem map_sized_candidateEntries {candidates : List (UInt64 × List String)}
    {entries : List (DirEntry × UInt64)}
    (grouped : ∀ candidate ∈ candidates, candidate ∈ group (entries.map sized)) :
    (candidateEntries candidates entries).map sized = candidateFiles candidates := by
  rw [candidateEntries, List.map_flatMap, candidateFiles, ungroup]
  apply List.flatMap_congr
  intro candidate member
  have known := grouped candidate member
  rw [group_eq] at known
  obtain ⟨size, -, rfl⟩ := List.mem_map.mp known
  rw [under, List.map_map, List.filter_map, List.map_map, List.map_map]
  show (entries.filter fun entry => entry.2 = size).map sized =
    (entries.filter fun entry => entry.2 = size).map fun entry => (size, (sized entry).2)
  apply List.map_congr_left
  intro entry kept
  have own : entry.2 = size := of_decide_eq_true (List.mem_filter.mp kept).2
  rw [← own]
  rfl

def hashedEntries (table : CaseTable) (probes : Probes) (options : ScanOptions)
    (sizeOrder : IterationOrder (UInt64 × List String)) (root : List UInt8) (walk : Walk) :
    List (DirEntry × UInt64) :=
  let candidates := sizeCandidates sizeOrder (scanWalk table probes options root walk).bySize
  let progress := hashCandidates probes.quickHash options.maxHashFiles candidates ⟨[], 0, 0, []⟩
  hashedOf probes.quickHash
    ((candidateEntries candidates (sizedEntries options walk)).take progress.examined.length)

section Examined

variable (table : CaseTable) (probes : Probes) (options : ScanOptions)
  (sizeOrder : IterationOrder (UInt64 × List String)) (root : List UInt8) (walk : Walk)

theorem map_sized_examined :
    let candidates := sizeCandidates sizeOrder (scanWalk table probes options root walk).bySize
    let progress := hashCandidates probes.quickHash options.maxHashFiles candidates ⟨[], 0, 0, []⟩
    ((candidateEntries candidates (sizedEntries options walk)).take progress.examined.length).map
      sized = attempted (hashable probes.quickHash) options.maxHashFiles
        (candidateFiles candidates) := by
  intro candidates progress
  have whole : (candidateEntries candidates (sizedEntries options walk)).map sized =
      candidateFiles candidates := by
    apply map_sized_candidateEntries
    intro candidate member
    rw [← sizedFiles_eq, ← bySize_scanWalk table probes options root walk]
    exact List.mem_of_mem_filter ((sizeCandidates_perm sizeOrder _).subset member)
  have examined : progress.examined = _ := (examined_candidates probes.quickHash _ candidates).examined
  have tried := attempted_prefix (hashable probes.quickHash) options.maxHashFiles
    (candidateFiles candidates)
  rw [List.map_take, whole, examined, List.length_map]
  exact (List.prefix_iff_eq_take.mp tried).symm

theorem map_path_hashedEntries :
    (hashedEntries table probes options sizeOrder root walk).map
      (fun entry => OsString.toStringLossy entry.1.path) =
    hashedPaths probes.quickHash (hashCandidates probes.quickHash options.maxHashFiles
      (sizeCandidates sizeOrder (scanWalk table probes options root walk).bySize)
      ⟨[], 0, 0, []⟩).examined := by
  have files := map_sized_examined table probes options sizeOrder root walk
  dsimp only at files
  rw [(examined_candidates _ _ _).examined, ← files, List.map_map, hashedPaths, List.filter_map]
  rfl

end Examined

/-- The reclaimable bytes are a sound upper bound: at least all but one file of each
content among the hashed files, exactly that if equal prefixes mean equal contents,
at most all hashed files, and never wrapped if the total is not. -/
theorem reclaimable_bytes_is_a_sound_upper_bound (table : CaseTable) (probes : Probes)
    (options : ScanOptions) (sizeOrder : IterationOrder (UInt64 × List String))
    (groupOrder : IterationOrder ((UInt64 × String) × List String)) (root : List UInt8)
    (walk : Walk) (content : List UInt8 → List UInt8) (prefixHash : List UInt8 → String)
    (faithful : Faithful probes.quickHash content prefixHash
      (hashedEntries table probes options sizeOrder root walk)) :
    let progress := hashCandidates probes.quickHash options.maxHashFiles
      (sizeCandidates sizeOrder (scanWalk table probes options root walk).bySize) ⟨[], 0, 0, []⟩
    let hashed := hashedEntries table probes options sizeOrder root walk
    let confirmed := confirmedGroups groupOrder progress.groups
    let estimate := (scan table probes options sizeOrder groupOrder root walk).duplicateEstimate
    hashed.map (fun entry => OsString.toStringLossy entry.1.path) =
      hashedPaths probes.quickHash progress.examined ∧
    duplicateBytes (contentsOf content hashed) ≤ redundantBytes confirmed ∧
    ((∀ first ∈ hashed, ∀ second ∈ hashed, first.2 = second.2 →
        probes.quickHash (OsString.toStringLossy first.1.path) =
          probes.quickHash (OsString.toStringLossy second.1.path) →
        content first.1.path = content second.1.path) →
      redundantBytes confirmed = duplicateBytes (contentsOf content hashed)) ∧
    redundantBytes confirmed ≤ ((contentsOf content hashed).map List.length).sum ∧
    (totalSize (regularFiles walk) < 2 ^ 64 →
      estimate.reclaimableBytes.toNat = redundantBytes confirmed ∧
      ∀ group ∈ confirmed, (groupBytes group).toNat = (group.2.length - 1) * group.1.1.toNat) := by
  intro progress hashed confirmed estimate
  have paths := map_path_hashedEntries table probes options sizeOrder root walk
  have examined : Examined probes.quickHash _ progress :=
    examined_candidates probes.quickHash options.maxHashFiles _
  have among := attempted_subperm table probes options sizeOrder root walk
  have groups : confirmed = confirmedGroups groupOrder
      (group ((((candidateEntries (sizeCandidates sizeOrder
        (scanWalk table probes options root walk).bySize) (sizedEntries options walk)).take
          progress.examined.length).map sized).filterMap (hashedItem? probes.quickHash))) := by
    rw [map_sized_examined table probes options sizeOrder root walk, ← examined.groups]
  refine ⟨paths, ?_, fun apart => ?_, ?_, ?_⟩
  · rw [groups]
    exact duplicateBytes_le faithful groupOrder
  · rw [groups]
    exact redundantBytes_eq faithful groupOrder apart
  · rw [groups]
    exact redundantBytes_le faithful groupOrder
  · intro small
    generalize attempted (hashable probes.quickHash) options.maxHashFiles _ = files
      at examined among
    have tried : confirmed = confirmedGroups groupOrder
        (group (files.filterMap (hashedItem? probes.quickHash))) := by
      rw [← examined.groups]
    obtain ⟨products, sum⟩ := toNat_reclaimable probes.quickHash groupOrder
      (Nat.lt_of_le_of_lt (totalSize_le_of_subperm
        (among.trans (sizedFiles_sublist options walk).subperm)) small)
    rw [← tried] at products sum
    refine ⟨?_, products⟩
    have reported : estimate = if options.detectDuplicates then
        estimateDuplicates probes.quickHash options.maxHashFiles sizeOrder groupOrder
          (scanWalk table probes options root walk).bySize else .default := by
      rw [bySize_scanWalk]
      exact duplicateEstimate_scan table probes options sizeOrder groupOrder root walk
    rw [reported]
    split
    next => exact sum
    next off =>
      have none : sizedFiles options walk = [] := if_neg off
      rw [none] at among
      rw [tried, List.subperm_nil.mp among, List.filterMap_nil, redundantBytes_confirmedGroups]
      rfl

def pairContent (path : List UInt8) : List UInt8 :=
  if path = utf8Bytes "a1" ∨ path = utf8Bytes "a2" then utf8Bytes "same" else utf8Bytes "other b"

def pairProbes : Probes where
  isMatch _ _ := false
  mimeType _ := none
  quickHash path := some (toLowerHex ((pairContent (utf8Bytes path)).take (64 * 1024)))

theorem reclaimable_bytes_is_a_sound_upper_bound_two_pairs :
    (scan asciiCase pairProbes ⟨false, true, 4⟩ insertionOrder insertionOrder (utf8Bytes "/data")
      twoPairs).duplicateEstimate.reclaimableBytes.toNat = 11 := by
  have faithful : Faithful pairProbes.quickHash pairContent toLowerHex (hashedEntries asciiCase
      pairProbes ⟨false, true, 4⟩ insertionOrder (utf8Bytes "/data") twoPairs) :=
    ⟨by decide +kernel, by decide +kernel⟩
  obtain ⟨-, -, equal, -, exact⟩ := reclaimable_bytes_is_a_sound_upper_bound asciiCase pairProbes
    ⟨false, true, 4⟩ insertionOrder insertionOrder (utf8Bytes "/data") twoPairs pairContent
    toLowerHex faithful
  rw [(exact (by decide +kernel)).1, equal (by decide +kernel)]
  decide +kernel

end AntiEntropator.Profile

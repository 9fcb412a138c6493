/-
This file compares the keys under which the blob store writes, `Digest::s3_key` of
`oci/digest.rs`, with the digests that the garbage collector reads from keys,
`s3_key_to_digest` of `gc.rs`. The collector reads every key back that the store writes. It
also reads keys that the store never writes: the third segment need only be some beginning
of the last one, so there are as many keys for a digest as its hexadecimal text has
beginnings. All of them are counted under the digest itself.
-/

import Layerhouse.Gc.Safety

namespace Layerhouse

/-! ### What the collector reads -/

/-- A key is read as four segments, the third of them a beginning of the last. -/
theorem s3KeyToDigest_eq_some {key text : String} :
    s3KeyToDigest key = some text ↔
      ∃ algorithm shard hex : List Char, '/' ∉ algorithm ∧ '/' ∉ shard ∧ shard <+: hex ∧
        key.toList = "blobs".toList ++ '/' :: (algorithm ++ '/' :: (shard ++ '/' :: hex)) ∧
        text.toList = algorithm ++ ':' :: hex := by
  constructor
  · intro read
    rw [s3KeyToDigest] at read
    split at read
    · rename_i kind algorithm shard hex split
      obtain ⟨⟨named, starts⟩, same⟩ := Option.ite_none_right_eq_some.mp read
      obtain ⟨behind, splitEq, _, split⟩ := Text.splitn_eq_cons_cons.mp split
      obtain ⟨last, behindEq, plainAlgorithm, split⟩ := Text.splitn_eq_cons_cons.mp split
      obtain ⟨_, lastEq, plainShard, whole⟩ := Text.splitn_eq_cons_cons.mp split
      obtain ⟨rest, shardEq⟩ := Option.isSome_iff_exists.mp starts
      refine ⟨algorithm, shard, hex, plainAlgorithm, plainShard,
        ⟨rest, (Text.stripPrefix_eq_some.mp shardEq).symm⟩, ?_, ?_⟩
      · rw [splitEq, behindEq, lastEq, ← named, String.toList_ofList,
          (List.cons.inj whole).1]
      · rw [← Option.some.inj same, String.toList_ofList]
    · cases read
  · rintro ⟨algorithm, shard, hex, plainAlgorithm, plainShard, ⟨rest, rfl⟩, keyEq, textEq⟩
    have starts : (Text.stripPrefix shard (shard ++ rest)).isSome = true :=
      Option.isSome_iff_exists.mpr ⟨rest, Text.stripPrefix_eq_some.mpr rfl⟩
    rw [s3KeyToDigest, keyEq, Text.splitn_cons_of_notMem (by decide),
      Text.splitn_cons_of_notMem plainAlgorithm, Text.splitn_cons_of_notMem plainShard,
      Text.splitn]
    simp only [String.ofList_toList, starts, and_self, if_true]
    rw [← textEq, String.ofList_toList]

/-- The key of the digest with another text in the place of its two leading digits. -/
def Digest.keyWithShard (digest : Digest) (shard : List Char) : String :=
  "blobs/" ++ digest.algorithm ++ "/" ++ String.ofList shard ++ "/" ++ digest.hex

theorem Digest.toList_keyWithShard (digest : Digest) (shard : List Char) :
    (digest.keyWithShard shard).toList = "blobs".toList ++ '/' :: (digest.algorithm.toList ++
      '/' :: (shard ++ '/' :: digest.hex.toList)) := by
  simp [keyWithShard]

theorem Digest.keyWithShard_inj {digest : Digest} {first second : List Char}
    (same : digest.keyWithShard first = digest.keyWithShard second) : first = second := by
  have lists := congrArg String.toList same
  rw [toList_keyWithShard, toList_keyWithShard, List.append_cancel_left_eq, List.cons.injEq,
    List.append_cancel_left_eq, List.cons.injEq, List.append_cancel_right_eq] at lists
  exact lists.2.2

/-- An accepted digest is printed with one colon, and has at least two hexadecimal digits. -/
theorem Digest.Checked.parts {digest : Digest} (checked : digest.Checked) :
    Text.splitOnce ':' digest.toStr.toList = some (digest.algorithm.toList, digest.hex.toList) ∧
      ':' ∉ digest.hex.toList ∧ 2 ≤ digest.hex.toList.length := by
  rw [Checked, fromStrChecked] at checked
  cases split : Text.splitOnce ':' digest.toStr.toList with
  | none =>
    rw [split] at checked
    cases checked
  | some halves =>
    obtain ⟨algo, hex⟩ := halves
    rw [split] at checked
    simp only [Option.ite_none_left_eq_some, Option.some.injEq, not_not] at checked
    obtain ⟨_, size, digits, rfl⟩ := checked
    simp only [String.toList_ofList]
    refine ⟨trivial, fun colon => ?_, ?_⟩
    · exact absurd (List.all_eq_true.mp digits ':' colon) (by decide)
    · rcases hex with _ | ⟨digit, _ | ⟨second, rest⟩⟩
      · split at size <;> exact absurd size (by decide)
      · have small := digit.utf8Size_le_four
        have single : (String.ofList [digit]).utf8ByteSize = digit.utf8Size := by simp
        split at size <;> omega
      · rw [List.length_cons, List.length_cons]
        omega

/-- The keys that are read as an accepted digest are those whose third segment is a beginning of
its hexadecimal text. -/
theorem s3KeyToDigest_eq_toStr {digest : Digest} (checked : digest.Checked) {key : String} :
    s3KeyToDigest key = some digest.toStr ↔
      ∃ shard, shard <+: digest.hex.toList ∧ key = digest.keyWithShard shard := by
  obtain ⟨_, plainAlgorithm, plainHex⟩ := Digest.fromStrChecked_eq_some checked
  obtain ⟨halves, noColonInHex, _⟩ := checked.parts
  obtain ⟨printed, noColon⟩ := Text.splitOnce_eq_some.mp halves
  rw [s3KeyToDigest_eq_some]
  constructor
  · rintro ⟨algorithm, shard, hex, _, _, starts, keyEq, textEq⟩
    have noColonRead : ':' ∉ algorithm := by
      -- the printed form has one colon
      have colons := congrArg (List.count ':') (textEq.symm.trans printed)
      rw [List.count_append, List.count_append, List.count_cons_self, List.count_cons_self,
        List.count_eq_zero.mpr noColon, List.count_eq_zero.mpr noColonInHex] at colons
      exact List.count_eq_zero.mp (by omega)
    rw [Text.splitOnce_eq_some.mpr ⟨textEq, noColonRead⟩, Option.some.injEq,
      Prod.mk.injEq] at halves
    rw [halves.1, halves.2] at keyEq
    refine ⟨shard, halves.2 ▸ starts, ?_⟩
    rw [← String.toList_inj, keyEq, Digest.toList_keyWithShard]
  · rintro ⟨shard, starts, rfl⟩
    exact ⟨digest.algorithm.toList, shard, digest.hex.toList, plainAlgorithm,
      fun slash => plainHex (starts.mem slash), starts, Digest.toList_keyWithShard digest shard,
      printed⟩

/-- The store writes under the beginning of two digits. -/
theorem keyWithShard_eq_s3Key_iff {digest : Digest} (checked : digest.Checked) {shard : List Char}
    (starts : shard <+: digest.hex.toList) :
    digest.keyWithShard shard = digest.s3Key ↔ shard.length = 2 := by
  have written : digest.s3Key = digest.keyWithShard (digest.hex.toList.take 2) := rfl
  rw [written]
  constructor
  · intro same
    rw [Digest.keyWithShard_inj same, List.length_take, min_eq_left checked.parts.2.2]
  · intro length
    rw [List.prefix_iff_eq_take.mp starts, length]

theorem s3Key_inj {first second : Digest} (ofFirst : first.Checked) (ofSecond : second.Checked)
    (same : first.s3Key = second.s3Key) : first = second := by
  have read := s3KeyToDigest_s3Key ofFirst
  rw [same, s3KeyToDigest_s3Key ofSecond, Option.some.injEq] at read
  rw [Digest.Checked, ← read, ofSecond, Option.some.injEq] at ofFirst
  exact ofFirst.symm

/-! ### What the counts protect -/

/-- A digest is counted exactly if some stored manifest refers to it. -/
theorem BlobRefsExact.count_pos_iff {data : StateMachineData} (exact : BlobRefsExact data)
    {digest : String} :
    0 < data.blobRefCountStr digest ↔
      ∃ (name : String) (repo : BTreeMap String ManifestEntry) (manifest : String)
        (entry : ManifestEntry), data.manifests[name]? = some repo ∧
          repo[manifest]? = some entry ∧ digest ∈ entry.blobKeys := by
  have counted : data.blobRefCountStr digest = referenceCount data.manifests digest :=
    exact.counted digest
  rw [counted, Nat.pos_iff_ne_zero, Ne, referenceCount, BTreeMap.total_eq_zero_iff]
  push Not
  constructor
  · rintro ⟨name, repo, found, positive⟩
    rw [Ne, BTreeMap.total_eq_zero_iff] at positive
    push Not at positive
    obtain ⟨manifest, entry, stored, weighed⟩ := positive
    refine ⟨name, repo, manifest, entry, found, stored, ?_⟩
    by_contra absent
    exact weighed (if_neg absent)
  · rintro ⟨name, repo, manifest, entry, found, stored, member⟩
    refine ⟨name, repo, found, fun zero => ?_⟩
    have weighed := BTreeMap.weight_eq_zero zero stored
    rw [ManifestEntry.weight, if_pos member] at weighed
    cases weighed

/-- The collector reads the keys of the store back, and no two accepted digests have the same
key. It reads an accepted digest also from the keys with another beginning of its hexadecimal
text, and protects an object that it reads it from exactly if a manifest refers to the digest. -/
theorem keys_name_checked_digests (externals : Externals) (codec : SnapshotCodec) :
    (∀ digest : Digest, digest.Checked → s3KeyToDigest digest.s3Key = some digest.toStr) ∧
      (∀ first second : Digest, first.Checked → second.Checked → first.s3Key = second.s3Key →
        first = second) ∧
      (∀ digest : Digest, digest.Checked → ∀ key, s3KeyToDigest key = some digest.toStr ↔
        ∃ shard, shard <+: digest.hex.toList ∧ key = digest.keyWithShard shard ∧
          (key = digest.s3Key ↔ shard.length = 2)) ∧
      ∀ labels machine, run (machineStep externals codec) ⟨StateMachineData.empty, none⟩ labels =
        some machine → ∀ key text, s3KeyToDigest key = some text →
          (0 < BTreeMap.count machine.data.blobRefCounts text ↔
            ∃ (name : String) (repo : BTreeMap String ManifestEntry) (manifest : String)
              (entry : ManifestEntry), machine.data.manifests[name]? = some repo ∧
                repo[manifest]? = some entry ∧ text ∈ entry.blobKeys) := by
  refine ⟨fun digest => s3KeyToDigest_s3Key, fun first second => s3Key_inj,
    fun digest checked key => ?_, fun labels machine reached key text _ => ?_⟩
  · rw [s3KeyToDigest_eq_toStr checked]
    constructor
    · rintro ⟨shard, starts, rfl⟩
      exact ⟨shard, starts, rfl, keyWithShard_eq_s3Key_iff checked starts⟩
    · rintro ⟨shard, starts, same, _⟩
      exact ⟨shard, starts, same⟩
  · have holds : BlobRefsExact machine.data :=
      run_invariant (fun state : StateMachine => BlobRefsExact state.data)
        (fun _ _ _ stepped holds => machineStep_blobRefsExact stepped holds) reached
        blobRefsExact_empty
    exact holds.count_pos_iff

/-- The key of a digest without its two leading digits in the third segment. -/
theorem unwritten_key_is_read :
    ¬ ∀ digest : Digest, digest.Checked → ∀ key,
      s3KeyToDigest key = some digest.toStr → key = digest.s3Key := by
  intro always
  have checked : Digest.fromStrChecked sampleLayer.toStr = some sampleLayer := by decide +kernel
  have read : s3KeyToDigest (sampleLayer.keyWithShard []) = some sampleLayer.toStr :=
    (s3KeyToDigest_eq_toStr checked).mpr ⟨[], List.nil_prefix, rfl⟩
  exact absurd ((keyWithShard_eq_s3Key_iff checked List.nil_prefix).mp
    (always sampleLayer checked _ read)) (by decide)

end Layerhouse

import OutpostPi.Pi.PeerStorage

/-!
# The stored high-waters

A high-water covers the sequences that were issued under its channel key. Raising one high-water
keeps every covering, and the raised sequence is above everything issued before
(`Covers.lt_of_raised`). This rests on one record per channel key (`Distinct`), which every
operation keeps as long as pairings bring new keys.
-/

set_option autoImplicit false

namespace OutpostPi.Pi

open OutpostPi.Lib

/-- The record was paired with the channel key. -/
def hasKey (key : String) (peer : Json) : Bool := peer.hasString "channel_key" key

/-- One high-water under a channel key has been raised to a sequence. -/
def Raised (name key : String) (seq : Nat) (peers peers' : List Json) : Prop :=
  ∃ before peer after stored, peers = before ++ peer :: after ∧ hasKey key peer = true ∧
    parsePeerChannelSequence (peer.field name) = some stored ∧ stored < seq ∧
    seq ≤ maxUint64 ∧
    peers' = before ++ peer.setField name (.string (toDecimal seq)) :: after

/-! ## What each operation does to the records -/

/-- Replacing at an index is replacing inside a split of the list. -/
theorem split_at {α : Type} {items : List α} {index : Nat} {old : α}
    (found : items[index]? = some old) : ∃ before after, items = before ++ old :: after ∧
      ∀ new, items.set index new = before ++ new :: after := by
  induction items generalizing index with
  | nil => cases found
  | cons item items ih =>
    cases index with
    | zero =>
      cases found
      exact ⟨[], items, rfl, fun _ => rfl⟩
    | succ index =>
      obtain ⟨before, after, rfl, replaced⟩ := ih found
      refine ⟨item :: before, after, rfl, ?_⟩
      intro new
      rw [List.set_cons_succ, replaced new]
      rfl

variable {faults : PeerFaults}

theorem released_ok {α : Type} {result other : α}
    (returned : faults.released (.ok result) = .ok other) : result = other := by
  rw [PeerFaults.released] at returned
  split at returned
  · cases returned
  · cases returned
    rfl

theorem parsed_le {value : Option Json} {parsed : Nat}
    (read : parsePeerChannelSequence value = some parsed) : parsed ≤ maxUint64 := by
  rw [parsePeerChannelSequence.eq_def] at read
  split at read
  · cases read
    exact Nat.zero_le _
  · rw [Option.filter_eq_some_iff] at read
    simpa using read.2
  · split at read
    · next fits =>
      cases read
      omega
    · cases read
  · cases read

/-- A reservation raises the send high-water to what it returns, or returns nothing. -/
theorem reserveSendSeq_cases (file : PeersFile) (faults : PeerFaults) (remoteEpk key : String) :
    ((reserveSendSeq file faults remoteEpk key).2.records = file.records ∧
        ∀ seq, (reserveSendSeq file faults remoteEpk key).1 ≠ .ok (some seq)) ∨
      ∃ seq, Raised "send_seq" key seq file.records
          (reserveSendSeq file faults remoteEpk key).2.records ∧
        ∀ other, (reserveSendSeq file faults remoteEpk key).1 = .ok (some other) →
          other = seq := by
  rw [reserveSendSeq]
  rcases mutatePeers_cases file faults _ with
    ⟨same, unwritten⟩ | ⟨peers, result, written, read, mutated, returned, replaced⟩
  -- nothing was written: no branch that gives a number leaves the file alone
  · refine Or.inl ⟨by rw [same], ?_⟩
    intro seq returned
    obtain ⟨peers, mutated⟩ := unwritten _ returned
    split at mutated
    · cases mutated
    · cases mutated
    · split at mutated
      · split at mutated
        · cases mutated
        · split at mutated <;> cases mutated
      · cases mutated
  -- the file was written: the one branch that does so has found the peer and its key
  · right
    split at mutated
    · cases mutated
    · cases mutated
    · next index peer found =>
      obtain ⟨at', -⟩ := findPeer_some found
      split at mutated
      · next own =>
        split at mutated
        · cases mutated
        · next stored parsed =>
          split at mutated
          · cases mutated
          · next room =>
            cases mutated
            have bounded : stored ≤ maxUint64 := parsed_le parsed
            obtain ⟨before, after, split, replace⟩ := split_at at'
            have listed : file.records = peers := by
              rcases read_cases read with same | empty
              · exact same
              · rw [empty] at at'
                cases at'
            refine ⟨stored + 1, ⟨before, peer, after, stored, listed.trans split, own, parsed,
              Nat.lt_succ_self stored, by omega, replaced.trans (replace _)⟩, ?_⟩
            intro other ok
            rw [returned] at ok
            cases released_ok ok
            rfl
      · cases mutated

/-- An accepted sequence has raised the receive high-water. -/
theorem compareAndAdvanceRecvSeq_cases (file : PeersFile) (faults : PeerFaults)
    (remoteEpk key : String) (seq : Nat) :
    ((compareAndAdvanceRecvSeq file faults remoteEpk key seq).2.records = file.records ∧
        (compareAndAdvanceRecvSeq file faults remoteEpk key seq).1 ≠ .ok .accepted) ∨
      Raised "recv_seq" key seq file.records
        (compareAndAdvanceRecvSeq file faults remoteEpk key seq).2.records := by
  rw [compareAndAdvanceRecvSeq]
  rcases mutatePeers_cases file faults _ with
    ⟨same, unwritten⟩ | ⟨peers, result, written, read, mutated, returned, replaced⟩
  -- nothing was written: no branch that accepts leaves the file alone
  · refine Or.inl ⟨by rw [same], ?_⟩
    intro returned
    obtain ⟨peers, mutated⟩ := unwritten _ returned
    split at mutated
    · cases mutated
    · cases mutated
    · split at mutated
      · split at mutated
        · cases mutated
        · split at mutated
          · cases mutated
          · split at mutated <;> cases mutated
      · cases mutated
  -- the file was written: the one branch that does so has found the peer, its key and a newer
  -- number
  · right
    split at mutated
    · cases mutated
    · cases mutated
    · next index peer found =>
      obtain ⟨at', -⟩ := findPeer_some found
      split at mutated
      · next own =>
        split at mutated
        · cases mutated
        · next fits =>
          split at mutated
          · cases mutated
          · next stored parsed =>
            split at mutated
            · cases mutated
            · next newer =>
              cases mutated
              obtain ⟨before, after, split, replace⟩ := split_at at'
              have listed : file.records = peers := by
                rcases read_cases read with same | empty
                · exact same
                · rw [empty] at at'
                  cases at'
              rw [Int.toNat_natCast] at newer replaced
              exact ⟨before, peer, after, stored, listed.trans split, own, parsed,
                Nat.lt_of_not_le newer, by omega, replaced.trans (replace _)⟩
      · cases mutated

/-- A pairing replaces one record, or comes after the records that were read. -/
theorem addPeer_cases (file : PeersFile) (faults : PeerFaults) (record : PeerRecord) :
    (addPeer file faults record).2.records = file.records ∨
      (∃ before peer after, file.records = before ++ peer :: after ∧
        (addPeer file faults record).2.records = before ++ record.toJson :: after) ∨
      (addPeer file faults record).2.records = file.records ++ [record.toJson] ∨
      (addPeer file faults record).2.records = [record.toJson] := by
  rw [addPeer]
  rcases mutatePeers_cases file faults _ with
    ⟨same, -⟩ | ⟨peers, result, written, read, mutated, -, replaced⟩
  · exact Or.inl (by rw [same])
  · right
    split at mutated
    · cases mutated
    · next index peer found =>
      obtain ⟨at', -⟩ := findPeer_some found
      cases mutated
      obtain ⟨before, after, split, replace⟩ := split_at at'
      rcases read_cases read with same | empty
      · exact Or.inl ⟨before, peer, after, same.trans split, replaced.trans (replace _)⟩
      · rw [empty] at at'
        cases at'
    · cases mutated
      rcases read_cases read with same | empty
      · exact Or.inr (Or.inl (by rw [replaced, same]))
      · exact Or.inr (Or.inr (by rw [replaced, empty]; rfl))

theorem removePeer_cases (file : PeersFile) (faults : PeerFaults) (remoteEpk : String) :
    (removePeer file faults remoteEpk).2.records = file.records ∨
      (removePeer file faults remoteEpk).2.records =
        file.records.filter fun peer => !isPeer remoteEpk peer := by
  rw [removePeer]
  rcases mutatePeers_cases file faults _ with
    ⟨same, -⟩ | ⟨peers, result, written, read, mutated, -, replaced⟩
  · exact Or.inl (by rw [same])
  · right
    split at mutated
    · cases mutated
    · simp only at mutated
      split at mutated
      · cases mutated
      · next shorter =>
        cases mutated
        rcases read_cases read with same | empty
        · rw [replaced, same]
        · subst empty
          exact absurd rfl shorter

/-! ## Coverings -/

/-- No channel key has two records. -/
def Distinct (peers : List Json) : Prop :=
  peers.Pairwise fun a b => ∀ key, hasKey key a = true → hasKey key b = true → False

/-- The stored high-water of every record is at least every sequence issued under its key. -/
def Covers (name : String) (issued : List (String × Nat)) (peers : List Json) : Prop :=
  ∀ peer ∈ peers, ∀ key seq, (key, seq) ∈ issued → hasKey key peer = true →
    ∃ stored, parsePeerChannelSequence (peer.field name) = some stored ∧ seq ≤ stored

variable {name key : String} {seq : Nat} {issued : List (String × Nat)} {peers peers' : List Json}

variable {peer : Json}

theorem hasKey_setField (distinct : "channel_key" ≠ name) {value : Json} :
    hasKey key (peer.setField name value) = hasKey key peer := by
  rw [hasKey, Json.hasString, Json.field_setField_of_ne distinct]
  rfl

theorem parse_toDecimal (fits : seq ≤ maxUint64) :
    parsePeerChannelSequence (some (.string (toDecimal seq))) = some seq := by
  simp [parsePeerChannelSequence, fits]

/-- A raised sequence is above everything issued under its key. -/
theorem Covers.lt_of_raised (covers : Covers name issued peers)
    (raised : Raised name key seq peers peers') {other : Nat} (mem : (key, other) ∈ issued) :
    other < seq := by
  obtain ⟨before, peer, after, stored, rfl, own, parsed, above, -, -⟩ := raised
  obtain ⟨stored', parsed', le⟩ := covers peer (by simp) key other mem own
  rw [parsed] at parsed'
  cases parsed'
  omega

theorem distinct_replace {before after : List Json} {new : Json}
    (distinct : Distinct (before ++ peer :: after))
    (fresh : ∀ key, hasKey key new = true → hasKey key peer = true ∨
      ∀ other ∈ before ++ peer :: after, hasKey key other = false) :
    Distinct (before ++ new :: after) := by
  rw [Distinct, List.pairwise_append, List.pairwise_cons] at distinct ⊢
  obtain ⟨left, ⟨first, right⟩, across⟩ := distinct
  refine ⟨left, ⟨?_, right⟩, ?_⟩
  · intro other mem key own has
    rcases fresh key own with old | unused
    · exact first other mem key old has
    · rw [unused other (by simp [mem])] at has
      cases has
  · intro other mem other' mem' key has has'
    rcases List.mem_cons.mp mem' with rfl | later
    · rcases fresh key has' with old | unused
      · exact across other mem peer (by simp) key has old
      · rw [unused other (by simp [mem])] at has
        cases has
    · exact across other mem other' (List.mem_cons_of_mem _ later) key has has'

theorem Distinct.of_raised (other : "channel_key" ≠ name) (distinct : Distinct peers)
    (raised : Raised name key seq peers peers') : Distinct peers' := by
  obtain ⟨before, peer, after, stored, rfl, -, -, -, -, rfl⟩ := raised
  refine distinct_replace distinct ?_
  intro key' has
  rw [hasKey_setField other] at has
  exact Or.inl has

theorem hasKey_unique {key' : String} (has : hasKey key peer = true)
    (has' : hasKey key' peer = true) : key' = key := by
  rw [hasKey, Json.hasString_iff] at has has'
  rw [has] at has'
  cases has'
  rfl

theorem field_setField_of_hasKey {value : Json} (has : hasKey key peer = true) :
    (peer.setField name value).field name = some value := by
  rw [hasKey, Json.hasString_iff] at has
  obtain ⟨fields, rfl⟩ := Json.object_of_field has
  exact Json.field_setField_self

/-- After a raise the high-water covers the raised sequence as well. -/
theorem Covers.of_raised (other : "channel_key" ≠ name) (distinct : Distinct peers)
    (covers : Covers name issued peers) (raised : Raised name key seq peers peers') :
    Covers name (issued ++ [(key, seq)]) peers' := by
  have above : ∀ earlier, (key, earlier) ∈ issued → earlier < seq :=
    fun earlier mem => covers.lt_of_raised raised mem
  obtain ⟨before, peer, after, stored, rfl, own, -, -, fits, rfl⟩ := raised
  rw [Distinct, List.pairwise_append, List.pairwise_cons] at distinct
  obtain ⟨-, ⟨first, -⟩, across⟩ := distinct
  have top : parsePeerChannelSequence
      ((peer.setField name (.string (toDecimal seq))).field name) = some seq := by
    rw [field_setField_of_hasKey own]
    exact parse_toDecimal fits
  intro peer' mem key' seq' issued' own'
  rw [List.mem_append, List.mem_cons] at mem
  rcases List.mem_append.mp issued' with old | new
  · rcases mem with left | rfl | right
    · exact covers peer' (by simp [left]) key' seq' old own'
    · rw [hasKey_setField other] at own'
      obtain rfl := hasKey_unique own own'
      exact ⟨seq, top, Nat.le_of_lt (above seq' old)⟩
    · exact covers peer' (by simp [right]) key' seq' old own'
  · obtain ⟨rfl, rfl⟩ : key' = key ∧ seq' = seq := by simpa using new
    -- no other record has the key
    rcases mem with left | rfl | right
    · exact (across peer' left peer (by simp) key' own' own).elim
    · exact ⟨seq', top, Nat.le_refl seq'⟩
    · exact (first peer' right key' own own').elim

/-- The other high-water of a record stays where it is. -/
theorem Covers.of_raised_other {name' : String} (differs : name ≠ name')
    (other : "channel_key" ≠ name') (covers : Covers name issued peers)
    (raised : Raised name' key seq peers peers') : Covers name issued peers' := by
  obtain ⟨before, peer, after, stored, rfl, -, -, -, -, rfl⟩ := raised
  intro peer' mem key' seq' old own'
  rw [List.mem_append, List.mem_cons] at mem
  rcases mem with left | rfl | right
  · exact covers peer' (by simp [left]) key' seq' old own'
  · rw [hasKey_setField other] at own'
    rw [Json.field_setField_of_ne differs]
    exact covers peer (by simp) key' seq' old own'
  · exact covers peer' (by simp [right]) key' seq' old own'

/-- Records of keys under which nothing was issued may come, and any may go. -/
theorem Covers.of_new (covers : Covers name issued peers)
    (known : ∀ peer ∈ peers', peer ∈ peers ∨
      ∀ key, hasKey key peer = true → ∀ seq, (key, seq) ∉ issued) :
    Covers name issued peers' := by
  intro peer mem key seq old own
  rcases known peer mem with before | fresh
  · exact covers peer before key seq old own
  · exact absurd old (fresh key own seq)

theorem Covers.mono {issued' : List (String × Nat)} (covers : Covers name issued peers)
    (fewer : ∀ entry ∈ issued', entry ∈ issued) : Covers name issued' peers := by
  intro peer mem key seq old own
  exact covers peer mem key seq (fewer _ old) own

/-! ## Pairings with new keys -/

/-- The channel key of the record is not among the keys used so far. -/
def FreshKey (used : List String) (record : PeerRecord) : Prop :=
  ∀ key ∈ record.channelKey, key ∉ used

variable {record : PeerRecord}

theorem hasKey_toJson (has : hasKey key record.toJson = true) : record.channelKey = some key := by
  rw [hasKey, Json.hasString_iff] at has
  cases stored : record.channelKey with
  | some other => 
    simp [PeerRecord.toJson, Json.field, optionalField, stored, List.lookup_cons] at has
    rw [has]
  | none =>
    cases send : record.sendSeq <;> cases recv : record.recvSeq <;>
      simp [PeerRecord.toJson, Json.field, optionalField, stored, send, recv, List.lookup_cons] at has

/-- Every key of a record is among those used. -/
def KeysUsed (used : List String) (peers : List Json) : Prop :=
  ∀ peer ∈ peers, ∀ key, hasKey key peer = true → key ∈ used

/-- A pairing with a new key keeps one record per key. -/
theorem distinct_addPeer {used : List String} {file : PeersFile} (fresh : FreshKey used record)
    (keys : KeysUsed used file.records) (distinct : Distinct file.records) :
    Distinct (addPeer file faults record).2.records := by
  have unused : ∀ key, hasKey key record.toJson = true → ∀ other ∈ file.records,
      hasKey key other = false := by
    intro key has other mem
    rw [← Bool.not_eq_true]
    intro has'
    exact fresh key (hasKey_toJson has) (keys other mem key has')
  rcases addPeer_cases file faults record with
    same | ⟨before, peer, after, split, replaced⟩ | appended | alone
  · rwa [same]
  · rw [split] at distinct unused
    rw [replaced]
    exact distinct_replace distinct fun key has => Or.inr (unused key has)
  · rw [appended, Distinct, List.pairwise_append]
    refine ⟨distinct, List.pairwise_singleton _ _, ?_⟩
    intro other mem new isNew key has has'
    rw [List.mem_singleton.mp isNew] at has'
    rw [unused key has' other mem] at has
    cases has
  · rw [alone]
    exact List.pairwise_singleton _ _

/-- Every record after a pairing was there before or is the new one. -/
theorem mem_addPeer {file : PeersFile} (mem : peer ∈ (addPeer file faults record).2.records) :
    peer ∈ file.records ∨ peer = record.toJson := by
  rcases addPeer_cases file faults record with
    same | ⟨before, old, after, split, replaced⟩ | appended | alone
  · rw [same] at mem
    exact Or.inl mem
  · rw [replaced, List.mem_append, List.mem_cons] at mem
    rw [split, List.mem_append, List.mem_cons]
    rcases mem with left | new | right
    · exact Or.inl (Or.inl left)
    · exact Or.inr new
    · exact Or.inl (Or.inr (Or.inr right))
  · rw [appended, List.mem_append, List.mem_singleton] at mem
    exact mem
  · rw [alone, List.mem_singleton] at mem
    exact Or.inr mem

end OutpostPi.Pi

import OutpostPi.Pi.PeerStorage

/-!
# The records of the other peers

Every mutator of `PeerStorage` works for one remote key and rewrites the whole file. The records
of all other keys survive each of them when the file was readable, because a mutation touches
the records of its own key only. When the file was not readable the mutators see an empty list:
three of them then write nothing, and `addPeer` writes the new record alone.

`others_kept_iff` says exactly when the other records are stored unchanged.
-/

set_option autoImplicit false

namespace OutpostPi.Pi

open OutpostPi.Lib

/-! ## Operations on one remote key -/

inductive PeerOp
  | addPeer (record : PeerRecord)
  | reserveSendSeq (remoteEpk expectedChannelKey : String)
  | compareAndAdvanceRecvSeq (remoteEpk expectedChannelKey : String) (recvSeq : Int)
  | removePeer (remoteEpk : String)

namespace PeerOp

/-- The remote key of an operation. -/
def remoteEpk : PeerOp → String
  | .addPeer record => record.remoteEpk
  | .reserveSendSeq remoteEpk _ => remoteEpk
  | .compareAndAdvanceRecvSeq remoteEpk _ _ => remoteEpk
  | .removePeer remoteEpk => remoteEpk

/-- The file after an operation. -/
def apply (file : PeersFile) (faults : PeerFaults) : PeerOp → PeersFile
  | .addPeer record => (Pi.addPeer file faults record).2
  | .reserveSendSeq remoteEpk key => (Pi.reserveSendSeq file faults remoteEpk key).2
  | .compareAndAdvanceRecvSeq remoteEpk key seq =>
    (Pi.compareAndAdvanceRecvSeq file faults remoteEpk key seq).2
  | .removePeer remoteEpk => (Pi.removePeer file faults remoteEpk).2

def isAddPeer : PeerOp → Bool
  | .addPeer _ => true
  | _ => false

end PeerOp

/-- The elements of a list that do not belong to a remote key. -/
def others (remoteEpk : String) (peers : List Json) : List Json :=
  peers.filter fun peer => !isPeer remoteEpk peer

/-! ## Mutations touch their own key -/

/-- Replacing an element that the test drops by another such element is not seen. -/
theorem filter_set {α : Type} {test : α → Bool} {items : List α} {index : Nat} {old new : α}
    (found : items[index]? = some old) (dropsOld : test old = false)
    (dropsNew : test new = false) : (items.set index new).filter test = items.filter test := by
  induction items generalizing index with
  | nil => cases found
  | cons item items ih =>
    cases index with
    | zero =>
      cases found
      rw [List.set_cons_zero, List.filter_cons_of_neg (by simp [dropsNew]),
        List.filter_cons_of_neg (by simp [dropsOld])]
    | succ index =>
      rw [List.set_cons_succ, List.filter_cons, List.filter_cons, ih found]

variable {remoteEpk : String}

theorem others_set {peers : List Json} {index : Nat} {old new : Json}
    (found : peers[index]? = some old) (own : isPeer remoteEpk old = true)
    (new_own : isPeer remoteEpk new = true) :
    others remoteEpk (peers.set index new) = others remoteEpk peers :=
  filter_set found (by simp [own]) (by simp [new_own])

theorem isPeer_toJson (record : PeerRecord) : isPeer record.remoteEpk record.toJson = true := by
  simp [isPeer, Json.hasString, PeerRecord.toJson, Json.field, List.lookup_cons]

/-- The assignment of another field keeps the owner of a record. -/
theorem isPeer_setField {name : String} {peer value : Json} (distinct : "remote_epk" ≠ name)
    (own : isPeer remoteEpk peer = true) : isPeer remoteEpk (peer.setField name value) = true := by
  rw [isPeer, Json.hasString, Json.field_setField_of_ne distinct]
  exact own

/-- A mutation that keeps the others in what it writes, and writes nothing over a file that was
not readable, keeps the others. -/
theorem others_mutatePeers {α : Type} (file : PeersFile) (faults : PeerFaults)
    {mutate : List Json → Except PeerError (α × Option (List Json))}
    (keeps : ∀ peers result written, mutate peers = .ok (result, some written) →
      others remoteEpk written = others remoteEpk peers)
    (silent : isMasked file faults.read = true → ∀ result written,
      mutate [] ≠ .ok (result, some written)) :
    others remoteEpk (mutatePeers file faults mutate).2.records =
      others remoteEpk file.records := by
  rcases mutatePeers_cases file faults mutate with
    ⟨same, -⟩ | ⟨peers, result, written, read, mutated, -, replaced⟩
  · rw [same]
  · rw [replaced, keeps peers result written mutated]
    cases masked : isMasked file faults.read with
    | false => rw [records_of_read masked read]
    | true =>
      rw [readPeersFile_of_masked masked] at read
      cases read
      exact absurd mutated (silent masked result written)

theorem others_reserveSendSeq (file : PeersFile) (faults : PeerFaults)
    (remoteEpk key : String) :
    others remoteEpk (reserveSendSeq file faults remoteEpk key).2.records =
      others remoteEpk file.records := by
  refine others_mutatePeers file faults ?_ ?_
  · intro peers result written mutated
    split at mutated
    · cases mutated
    · cases mutated
    · next index peer found =>
      obtain ⟨at', own⟩ := findPeer_some found
      split at mutated
      · split at mutated
        · cases mutated
        · split at mutated
          · cases mutated
          · cases mutated
            exact others_set at' own (isPeer_setField (by decide) own)
      · cases mutated
  · intro _ result written mutated
    cases mutated

theorem others_compareAndAdvanceRecvSeq (file : PeersFile) (faults : PeerFaults)
    (remoteEpk key : String) (seq : Int) :
    others remoteEpk (compareAndAdvanceRecvSeq file faults remoteEpk key seq).2.records =
      others remoteEpk file.records := by
  refine others_mutatePeers file faults ?_ ?_
  · intro peers result written mutated
    split at mutated
    · cases mutated
    · cases mutated
    · next index peer found =>
      obtain ⟨at', own⟩ := findPeer_some found
      split at mutated
      · split at mutated
        · cases mutated
        · split at mutated
          · cases mutated
          · split at mutated
            · cases mutated
            · cases mutated
              exact others_set at' own (isPeer_setField (by decide) own)
      · cases mutated
  · intro _ result written mutated
    cases mutated

theorem others_removePeer (file : PeersFile) (faults : PeerFaults) (remoteEpk : String) :
    others remoteEpk (removePeer file faults remoteEpk).2.records =
      others remoteEpk file.records := by
  refine others_mutatePeers file faults ?_ ?_
  · intro peers result written mutated
    split at mutated
    · cases mutated
    · simp only at mutated
      split at mutated
      · cases mutated
      · cases mutated
        rw [others, others, List.filter_filter]
        simp
  · intro _ result written mutated
    simp at mutated

/-- A readable file keeps the others when a pairing is added. -/
theorem others_addPeer {file : PeersFile} {faults : PeerFaults} {record : PeerRecord}
    (readable : isMasked file faults.read = false) :
    others record.remoteEpk (addPeer file faults record).2.records =
      others record.remoteEpk file.records := by
  refine others_mutatePeers file faults ?_ ?_
  · intro peers result written mutated
    split at mutated
    · cases mutated
    · next index peer found =>
      obtain ⟨at', own⟩ := findPeer_some found
      cases mutated
      exact others_set at' own (isPeer_toJson record)
    · cases mutated
      rw [others, others, List.filter_append]
      simp [isPeer_toJson record]
  · intro masked
    rw [readable] at masked
    cases masked

/-! ## When the others are kept -/

/-- A pairing is written over a file that holds other peers and could not be read. -/
def DropsOthers (op : PeerOp) (file : PeersFile) (faults : PeerFaults) : Prop :=
  op.isAddPeer = true ∧ isMasked file faults.read = true ∧
    faults.lock = false ∧ faults.write = false ∧ others op.remoteEpk file.records ≠ []

/-- Over an unreadable file the new record is written alone. -/
theorem addPeer_of_masked {file : PeersFile} {faults : PeerFaults} {record : PeerRecord}
    (masked : isMasked file faults.read = true) :
    (addPeer file faults record).2 =
      if faults.lock = true ∨ faults.write = true then file
      else .document (.object [("peers", .array [record.toJson])]) := by
  rw [addPeer, mutatePeers, readPeersFile_of_masked masked]
  cases faults.lock <;> cases faults.write <;> rfl

/-- An operation stores the records of all other peers unchanged, unless it adds a pairing to a
file that it could not read. -/
theorem others_kept_iff (op : PeerOp) (file : PeersFile) (faults : PeerFaults) :
    others op.remoteEpk (op.apply file faults).records = others op.remoteEpk file.records ↔
      ¬ DropsOthers op file faults := by
  cases op with
  | addPeer record =>
    cases masked : isMasked file faults.read with
    | false =>
      refine iff_of_true (others_addPeer masked) ?_
      rintro ⟨-, unreadable, -⟩
      rw [masked] at unreadable
      cases unreadable
    -- the file could not be read, and a pairing writes its own record alone
    | true =>
      rw [PeerOp.apply, addPeer_of_masked masked]
      by_cases stuck : faults.lock = true ∨ faults.write = true
      · rw [if_pos stuck]
        refine iff_of_true rfl ?_
        rintro ⟨-, -, unlocked, wrote, -⟩
        rcases stuck with locked | failed
        · rw [unlocked] at locked
          cases locked
        · rw [wrote] at failed
          cases failed
      · rw [if_neg stuck]
        have alone : others record.remoteEpk [record.toJson] = [] := by
          simp [others, isPeer_toJson record]
        rw [not_or, Bool.not_eq_true, Bool.not_eq_true] at stuck
        constructor
        · intro kept
          rintro ⟨-, -, -, -, held⟩
          exact held (kept.symm.trans alone)
        · intro safe
          have empty : others record.remoteEpk file.records = [] := by
            by_contra held
            exact safe ⟨rfl, masked, stuck.1, stuck.2, held⟩
          exact alone.trans empty.symm
  -- the other operations give up when the file cannot be read
  | reserveSendSeq remoteEpk key =>
    refine iff_of_true (others_reserveSendSeq file faults remoteEpk key) ?_
    rintro ⟨adds, -⟩
    cases adds
  | compareAndAdvanceRecvSeq remoteEpk key seq =>
    refine iff_of_true (others_compareAndAdvanceRecvSeq file faults remoteEpk key seq) ?_
    rintro ⟨adds, -⟩
    cases adds
  | removePeer remoteEpk =>
    refine iff_of_true (others_removePeer file faults remoteEpk) ?_
    rintro ⟨adds, -⟩
    cases adds

/-- One transient read error while a second Owner pairs drops the record of the first. -/
theorem exists_read_error_drops_owner :
    ∃ (op : PeerOp) (file : PeersFile) (faults : PeerFaults),
      faults = ⟨false, true, false, false⟩ ∧
      others op.remoteEpk (op.apply file faults).records ≠
        others op.remoteEpk file.records := by
  refine ⟨.addPeer ⟨"tablet", "owner-2", "2026-01-02", some "key-2", some "0", some "0"⟩,
    .document (.object [("peers", .array
      [(⟨"phone", "owner-1", "2026-01-01", some "key-1", some "4", some "7"⟩ :
        PeerRecord).toJson])]),
    ⟨false, true, false, false⟩, rfl, ?_⟩
  intro kept
  have counted := congrArg List.length kept
  exact absurd counted (by decide)

end OutpostPi.Pi

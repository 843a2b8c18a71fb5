import Mathlib.Algebra.Order.BigOperators.Group.List
import Mathlib.Algebra.Ring.Nat

/-!
# The bounded inbox

A queue that is bounded by a count and by a sum of sizes. A push sheds the oldest entries until
both bounds hold or only the newest is left, an item that is larger than the byte budget is not
retained at all, and both are counted. `Shed` says what a push leaves behind, and everything else
is read off it.
-/

set_option autoImplicit false

namespace OutpostPi.Mcp

structure InboxLimits where
  maxMessages : Nat
  maxBytes : Nat

/-- `INBOX_LIMITS`. -/
def inboxLimits : InboxLimits := ⟨1000, 4 * 1024 * 1024⟩

structure InboxEntry (T : Type) where
  item : T
  size : Nat

/-- The retained entries, oldest first, with the sum of their sizes. -/
structure BoundedInbox (T : Type) where
  entries : List (InboxEntry T)
  bytes : Nat
  dropped : Nat
  total : bytes = (entries.map InboxEntry.size).sum

variable {T : Type}

/-- The loop of `push`: shed the oldest entry while there is another one and a bound is exceeded. -/
def shedOldest (limits : InboxLimits) :
    List (InboxEntry T) → Nat → Nat → List (InboxEntry T) × Nat × Nat
  | [], bytes, dropped => ([], bytes, dropped)
  | oldest :: rest, bytes, dropped =>
    if 1 < rest.length + 1 ∧ (limits.maxMessages < rest.length + 1 ∨ limits.maxBytes < bytes) then
      shedOldest limits rest (bytes - oldest.size) (dropped + 1)
    else (oldest :: rest, bytes, dropped)

theorem shedOldest_total (limits : InboxLimits) (entries : List (InboxEntry T)) (dropped : Nat) :
    (shedOldest limits entries (entries.map InboxEntry.size).sum dropped).2.1 =
      ((shedOldest limits entries (entries.map InboxEntry.size).sum dropped).1.map
        InboxEntry.size).sum := by
  induction entries generalizing dropped with
  | nil => rfl
  | cons oldest rest ih =>
    rw [shedOldest]
    split
    · rw [List.map_cons, List.sum_cons, Nat.add_sub_cancel_left]
      exact ih (dropped + 1)
    · rfl

/-- A part of the entries from the front is shed and counted, and never all of them. -/
structure Shed (before after : List (InboxEntry T)) (dropped dropped' : Nat) : Prop where
  parts : ∃ shed, before = shed ++ after ∧ dropped' = dropped + shed.length
  left : before ≠ [] → after ≠ []

theorem shed_shedOldest (limits : InboxLimits) (entries : List (InboxEntry T))
    (bytes dropped : Nat) :
    Shed entries (shedOldest limits entries bytes dropped).1 dropped
      (shedOldest limits entries bytes dropped).2.2 := by
  induction entries generalizing bytes dropped with
  | nil => exact ⟨⟨[], rfl, rfl⟩, id⟩
  | cons oldest rest ih =>
    rw [shedOldest]
    split
    · next exceeds =>
      obtain ⟨⟨shed, same, counted⟩, left⟩ := ih (bytes - oldest.size) (dropped + 1)
      have more : rest ≠ [] := by
        intro none
        rw [none] at exceeds
        exact absurd exceeds.1 (Nat.lt_irrefl 1)
      refine ⟨⟨oldest :: shed, congrArg (oldest :: ·) same, ?_⟩, fun _ => left more⟩
      rw [counted, List.length_cons]
      omega
    · exact ⟨⟨[], rfl, rfl⟩, id⟩

namespace BoundedInbox

def empty : BoundedInbox T := ⟨[], 0, 0, rfl⟩

/-- Retained items in the order of their arrival. -/
def items (inbox : BoundedInbox T) : List T := inbox.entries.map InboxEntry.item

def find (inbox : BoundedInbox T) (pred : T → Bool) : Option T := inbox.items.find? pred

def some (inbox : BoundedInbox T) (pred : T → Bool) : Bool := inbox.items.any pred

/-- Retain one item, shedding the oldest overflow. -/
def push (sizeOf : T → Nat) (limits : InboxLimits) (inbox : BoundedInbox T) (item : T) :
    BoundedInbox T :=
  if limits.maxBytes < sizeOf item then { inbox with dropped := inbox.dropped + 1 }
  else
    let entries := inbox.entries ++ [⟨item, sizeOf item⟩]
    let kept := shedOldest limits entries (inbox.bytes + sizeOf item) inbox.dropped
    { entries := kept.1
      bytes := kept.2.1
      dropped := kept.2.2
      total := by
        have sum : inbox.bytes + sizeOf item = (entries.map InboxEntry.size).sum := by
          simp [entries, inbox.total]
        simp only [kept, sum]
        exact shedOldest_total limits entries inbox.dropped }

/-! ## What a push retains -/

section Push

variable (inbox : BoundedInbox T) {sizeOf : T → Nat} {limits : InboxLimits} {item : T}

theorem push_small (small : sizeOf item ≤ limits.maxBytes) :
    (inbox.push sizeOf limits item).entries =
        (shedOldest limits (inbox.entries ++ [⟨item, sizeOf item⟩]) (inbox.bytes + sizeOf item)
          inbox.dropped).1 ∧
      (inbox.push sizeOf limits item).dropped =
        (shedOldest limits (inbox.entries ++ [⟨item, sizeOf item⟩]) (inbox.bytes + sizeOf item)
          inbox.dropped).2.2 := by
  rw [push, if_neg (Nat.not_lt_of_le small)]
  exact ⟨rfl, rfl⟩

theorem push_oversized (large : limits.maxBytes < sizeOf item) :
    inbox.push sizeOf limits item = { inbox with dropped := inbox.dropped + 1 } :=
  if_pos large

/-- The items of the inbox and the new one are those that are shed and those that are retained,
among them the new one. -/
theorem push_retained (small : sizeOf item ≤ limits.maxBytes) :
    ∃ shed, inbox.items ++ [item] = shed ++ (inbox.push sizeOf limits item).items ∧
      (inbox.push sizeOf limits item).dropped = inbox.dropped + shed.length ∧
        item ∈ (inbox.push sizeOf limits item).items := by
  obtain ⟨⟨shed, same, counted⟩, left⟩ := shed_shedOldest limits
    (inbox.entries ++ [⟨item, sizeOf item⟩]) (inbox.bytes + sizeOf item) inbox.dropped
  have kept := left (by simp)
  obtain ⟨entries, dropped⟩ := inbox.push_small small
  rw [← entries] at same kept
  rw [← dropped] at counted
  refine ⟨shed.map InboxEntry.item, ?_, ?_, ?_⟩
  · have mapped := congrArg (List.map InboxEntry.item) same
    simpa [items] using mapped
  · rw [List.length_map]
    exact counted
  · -- the last of the entries is not shed
    have last := congrArg List.getLast? same
    rw [List.getLast?_concat, List.getLast?_append_of_ne_nil _ kept] at last
    exact List.mem_map.mpr ⟨_, List.mem_of_getLast? last.symm, rfl⟩

/-- Whatever is retained was in the inbox or is the new item. -/
theorem mem_of_mem_push {other : T} (mem : other ∈ (inbox.push sizeOf limits item).items) :
    other ∈ inbox.items ∨ other = item := by
  by_cases large : limits.maxBytes < sizeOf item
  · rw [inbox.push_oversized large] at mem
    exact Or.inl mem
  · obtain ⟨shed, same, -, -⟩ := inbox.push_retained (Nat.le_of_not_lt large)
    have here := List.mem_append_right shed mem
    rw [← same] at here
    simpa using here

/-- Items that are retained or shed are those there were, and what is shed is counted. -/
theorem push_accounts (sizeOf : T → Nat) (limits : InboxLimits) (item : T) : ∃ shed, (inbox.items ++ [item]).Perm
      (shed ++ (inbox.push sizeOf limits item).items) ∧
    (inbox.push sizeOf limits item).items.Sublist (inbox.items ++ [item]) ∧
    (inbox.push sizeOf limits item).dropped = inbox.dropped + shed.length := by
  by_cases large : limits.maxBytes < sizeOf item
  · rw [inbox.push_oversized large]
    exact ⟨[item], List.perm_append_comm, List.sublist_append_left _ _, rfl⟩
  · obtain ⟨shed, same, counted, -⟩ := inbox.push_retained (Nat.le_of_not_lt large)
    refine ⟨shed, same ▸ List.Perm.refl _, ?_, counted⟩
    rw [same]
    exact List.sublist_append_right _ _

end Push

end BoundedInbox

end OutpostPi.Mcp

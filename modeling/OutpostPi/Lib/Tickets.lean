import Mathlib.Data.List.Nodup

/-!
# Tickets

An authority issues tickets, each to one holder, and a holder uses its ticket or loses it. The
holders may crash at any time. If no ticket is issued twice, then none is used twice
(`Sound.nodup_used`), however the holders interleave.
-/

set_option autoImplicit false

namespace OutpostPi.Lib

universe u v

namespace Tickets

variable {ι : Type u} {τ : Type v}

/-- Every ticket was issued once and is unissued, held by one holder, lost or used once. -/
structure Sound (issued : List τ) (held : ι → Option τ) (used : List τ) : Prop where
  nodup_issued : issued.Nodup
  nodup_used : used.Nodup
  issued_of_used : ∀ ticket ∈ used, ticket ∈ issued
  issued_of_held : ∀ i ticket, held i = some ticket → ticket ∈ issued
  unused_of_held : ∀ i ticket, held i = some ticket → ticket ∉ used
  holder : ∀ i j ticket, held i = some ticket → held j = some ticket → i = j

variable {issued used : List τ} {held held' : ι → Option τ} {i : ι} {ticket : τ}

theorem Sound.nil : Sound [] (fun _ : ι => none) ([] : List τ) := by
  constructor <;> simp

/-- Tickets may be lost. -/
theorem Sound.lose (sound : Sound issued held used)
    (kept : ∀ j ticket, held' j = some ticket → held j = some ticket) :
    Sound issued held' used :=
  { sound with
    issued_of_held j ticket has := sound.issued_of_held j ticket (kept j ticket has)
    unused_of_held j ticket has := sound.unused_of_held j ticket (kept j ticket has)
    holder j k ticket has has' := sound.holder j k ticket (kept j ticket has) (kept k ticket has') }

/-- A new ticket may be issued to anybody. -/
theorem Sound.issue (sound : Sound issued held used) (fresh : ticket ∉ issued)
    (kept : ∀ j other, held' j = some other → (j = i ∧ other = ticket) ∨ held j = some other) :
    Sound (issued ++ [ticket]) held' used := by
  have unused : ticket ∉ used := by
    intro mem
    exact fresh (sound.issued_of_used ticket mem)
  have unheld : ∀ j, held j ≠ some ticket := by
    intro j has
    exact fresh (sound.issued_of_held j ticket has)
  constructor
  · rw [← List.concat_eq_append]
    exact sound.nodup_issued.concat fresh
  · exact sound.nodup_used
  · intro other mem
    exact List.mem_append_left _ (sound.issued_of_used other mem)
  · intro j other has
    rcases kept j other has with ⟨-, rfl⟩ | before
    · exact List.mem_append_right _ (List.mem_singleton.mpr rfl)
    · exact List.mem_append_left _ (sound.issued_of_held j other before)
  · intro j other has
    rcases kept j other has with ⟨-, rfl⟩ | before
    · exact unused
    · exact sound.unused_of_held j other before
  · intro j k other has has'
    rcases kept j other has with ⟨rfl, rfl⟩ | before
    · rcases kept k other has' with ⟨rfl, -⟩ | before'
      · rfl
      · exact absurd before' (unheld k)
    · rcases kept k other has' with ⟨-, rfl⟩ | before'
      · exact absurd before (unheld j)
      · exact sound.holder j k other before before'

/-- A holder uses its ticket up. -/
theorem Sound.use (sound : Sound issued held used) (has : held i = some ticket)
    (spent : held' i = none)
    (kept : ∀ j other, held' j = some other → held j = some other) :
    Sound issued held' (used ++ [ticket]) := by
  constructor
  · exact sound.nodup_issued
  · rw [← List.concat_eq_append]
    exact sound.nodup_used.concat (sound.unused_of_held i ticket has)
  · intro other mem
    rcases List.mem_append.mp mem with before | now
    · exact sound.issued_of_used other before
    · rw [List.mem_singleton.mp now]
      exact sound.issued_of_held i ticket has
  · intro j other holds
    exact sound.issued_of_held j other (kept j other holds)
  · intro j other holds mem
    rcases List.mem_append.mp mem with before | now
    · exact sound.unused_of_held j other (kept j other holds) before
    · -- only the spender held this ticket, and it no longer does
      obtain rfl := List.mem_singleton.mp now
      obtain rfl := sound.holder j i other (kept j other holds) has
      rw [spent] at holds
      cases holds
  · intro j k other holds holds'
    exact sound.holder j k other (kept j other holds) (kept k other holds')

end Tickets

end OutpostPi.Lib

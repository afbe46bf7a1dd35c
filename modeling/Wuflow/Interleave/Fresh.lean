/-
**Values that are drawn once and used once.**

Threads draw values (clock readings, random secrets) and spend them in marked queries. `Fresh mark pick
past value` says that the thread has drawn `value` and asked no marked query since. If no value is drawn
twice in a trace and every marked query spends a fresh value, then no two marked queries spend the same
value (`fresh_once`).
-/

import Wuflow.Interleave.Run

namespace Interleave

variable {ι Query : Type} {Answer : Query → Type} {β : Type}

/-- The history draws `value`, and asks no marked query after it. -/
def Fresh (mark : Query → Prop) (pick : Entry Answer → Option β) (past : List (Entry Answer))
    (value : β) : Prop :=
  ∃ gap entry rest, past = gap ++ entry :: rest ∧ pick entry = some value ∧
    ∀ later ∈ gap, ¬ mark later.1

/-- The values drawn in a trace, newest first. -/
def drawn (pick : Entry Answer → Option β) (past : List (Event ι Answer)) : List β :=
  past.filterMap fun event => pick event.entry

namespace Fresh

variable {mark : Query → Prop} {pick : Entry Answer → Option β} {past : List (Entry Answer)}
  {value : β}

theorem here {entry : Entry Answer} (picked : pick entry = some value) :
    Fresh mark pick (entry :: past) value := ⟨[], entry, past, rfl, picked, nofun⟩

theorem cons {entry : Entry Answer} (unmarked : ¬ mark entry.1) (fresh : Fresh mark pick past value) :
    Fresh mark pick (entry :: past) value := by
  obtain ⟨gap, draw, rest, rfl, picked, quiet⟩ := fresh
  refine ⟨entry :: gap, draw, rest, rfl, picked, fun later member => ?_⟩
  rcases List.mem_cons.mp member with rfl | member
  · exact unmarked
  · exact quiet later member

theorem exists_mem (fresh : Fresh mark pick past value) : ∃ entry ∈ past, pick entry = some value := by
  obtain ⟨gap, draw, rest, rfl, picked, _⟩ := fresh
  exact ⟨draw, List.mem_append_right _ List.mem_cons_self, picked⟩

end Fresh

section Drawn

variable {pick : Entry Answer → Option β}

theorem mem_drawn {past : List (Event ι Answer)} {value : β} :
    value ∈ drawn pick past ↔ ∃ event ∈ past, pick event.entry = some value := by
  simp [drawn]

theorem drawn_append (later earlier : List (Event ι Answer)) :
    drawn pick (later ++ earlier) = drawn pick later ++ drawn pick earlier := by
  simp [drawn]

/-- If no value is drawn twice, a value belongs to one event. -/
theorem eq_of_nodup_drawn {past : List (Event ι Answer)} (distinct : (drawn pick past).Nodup)
    {first second : Event ι Answer} (member : first ∈ past) (member' : second ∈ past) {value : β}
    (picked : pick first.entry = some value) (picked' : pick second.entry = some value) :
    first = second := by
  induction past with
  | nil => cases member
  | cons event past ih =>
      have split : drawn pick (event :: past) = (drawn pick [event]) ++ drawn pick past :=
        drawn_append [event] past
      rw [split, List.nodup_append] at distinct
      obtain ⟨_, rest, apart⟩ := distinct
      rcases List.mem_cons.mp member with rfl | inside
      · rcases List.mem_cons.mp member' with rfl | inside'
        · rfl
        · exact absurd rfl (apart value (mem_drawn.mpr ⟨first, List.mem_singleton_self _, picked⟩)
            value (mem_drawn.mpr ⟨second, inside', picked'⟩))
      · rcases List.mem_cons.mp member' with rfl | inside'
        · exact absurd rfl (apart value (mem_drawn.mpr ⟨second, List.mem_singleton_self _, picked'⟩)
            value (mem_drawn.mpr ⟨first, inside, picked⟩))
        · exact ih rest inside inside'

end Drawn

section Once

variable [DecidableEq ι] {mark : Query → Prop} {pick : Entry Answer → Option β}

/-- **A drawn value is spent once.** Two marked events of a trace in which no value is drawn twice do
not both spend the same fresh value. -/
theorem fresh_once {later between earlier : List (Event ι Answer)} {first second : Event ι Answer}
    {value : β}
    (distinct : (drawn pick (later ++ second :: (between ++ first :: earlier))).Nodup)
    (drawsUnmarked : ∀ entry : Entry Answer, (pick entry).isSome → ¬ mark entry.1)
    (marked : mark first.query) (spends : Fresh mark pick (own first.thread earlier) value)
    (spends' : Fresh mark pick (own second.thread (between ++ first :: earlier)) value) : False := by
  have older : (drawn pick (between ++ first :: earlier)).Nodup := by
    rw [show later ++ second :: (between ++ first :: earlier) =
      (later ++ [second]) ++ (between ++ first :: earlier) by simp, drawn_append] at distinct
    exact (List.nodup_append.mp distinct).2.1
  obtain ⟨entry, member, picked⟩ := spends.exists_mem
  obtain ⟨draw, inside, same, rfl⟩ := mem_own.mp member
  have inside' : draw ∈ between ++ first :: earlier :=
    List.mem_append_right _ (List.mem_cons_of_mem _ inside)
  by_cases threads : second.thread = first.thread
  · -- the same thread: its second draw is newer than its first marked query
    obtain ⟨gap, entry', rest, history, picked', quiet⟩ := spends'
    rw [threads, own_append, own_cons_self] at history
    have newer : value ∈ drawn pick between := by
      rcases List.append_eq_append_iff.mp history with ⟨more, front, back⟩ | ⟨more, front, back⟩
      · cases more with
        | nil =>
            rw [List.nil_append] at back
            have same' : first.entry = entry' := (List.cons.inj back).1
            exact absurd marked (drawsUnmarked first.entry (by rw [same', picked']; rfl))
        | cons head more =>
            have same' : first.entry = head := (List.cons.inj back).1
            refine absurd marked (quiet first.entry ?_)
            rw [front, same']
            exact List.mem_append_right _ List.mem_cons_self
      · cases more with
        | nil =>
            rw [List.nil_append] at back
            have same' : entry' = first.entry := (List.cons.inj back).1
            exact absurd marked (drawsUnmarked first.entry (by rw [← same', picked']; rfl))
        | cons head more =>
            have same' : entry' = head := (List.cons.inj back).1
            have recent : entry' ∈ own first.thread between := by
              rw [front, same']
              exact List.mem_append_right _ List.mem_cons_self
            obtain ⟨event, inside, _, found⟩ := mem_own.mp recent
            exact mem_drawn.mpr ⟨event, inside, by rw [found]; exact picked'⟩
    rw [drawn_append] at older
    refine (List.nodup_append.mp older).2.2 value newer value ?_ rfl
    exact mem_drawn.mpr ⟨draw, List.mem_cons_of_mem _ inside, picked⟩
  · -- different threads draw in different events
    obtain ⟨entry', member', picked'⟩ := spends'.exists_mem
    obtain ⟨draw', inside'', same', rfl⟩ := mem_own.mp member'
    have equal := eq_of_nodup_drawn older inside' inside'' picked picked'
    rw [← same', ← equal, same] at threads
    exact threads rfl

/-- **A drawn value is spent in one place.** -/
theorem fresh_unique {later earlier later' earlier' : List (Event ι Answer)}
    {first second : Event ι Answer} {value : β}
    (places : later ++ first :: earlier = later' ++ second :: earlier')
    (distinct : (drawn pick (later ++ first :: earlier)).Nodup)
    (drawsUnmarked : ∀ entry : Entry Answer, (pick entry).isSome → ¬ mark entry.1)
    (marked : mark first.query) (marked' : mark second.query)
    (spends : Fresh mark pick (own first.thread earlier) value)
    (spends' : Fresh mark pick (own second.thread earlier') value) :
    later = later' ∧ first = second ∧ earlier = earlier' := by
  rcases List.append_eq_append_iff.mp places with ⟨more, front, back⟩ | ⟨more, front, back⟩
  · cases more with
    | nil =>
        obtain ⟨same, rest⟩ := List.cons.inj back
        exact ⟨by rw [front, List.append_nil], same, rest⟩
    | cons head between =>
        obtain ⟨rfl, rfl⟩ := List.cons.inj back
        exact (fresh_once distinct drawsUnmarked marked' spends' spends).elim
  · cases more with
    | nil =>
        obtain ⟨same, rest⟩ := List.cons.inj back
        exact ⟨by rw [front, List.append_nil], same.symm, rest.symm⟩
    | cons head between =>
        obtain ⟨rfl, rfl⟩ := List.cons.inj back
        rw [places] at distinct
        exact (fresh_once distinct drawsUnmarked marked spends spends').elim

end Once

end Interleave

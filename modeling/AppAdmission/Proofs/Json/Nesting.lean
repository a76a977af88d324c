import AppAdmission.Json.Source

/-!
# Levels in a tree that was read

The machine that builds a tree notes at each container how deep it is nested at its deepest point. What
it notes bounds the level of every container within. `Nests` says so of a tree and `Inside` leads from a
tree to a part of it, one step for each container in between.
-/

namespace AppAdmission.Json.Source

/-- A value that begins at a level; a container notes no less than any level within. -/
inductive Nests : Nat → Source → Prop where
  | null {level : Nat} : Nests level .null
  | bool {level : Nat} {b : Bool} : Nests level (.bool b)
  | num {level : Nat} {n : Option Number} : Nests level (.num n)
  | str {level : Nat} {s : Option String} : Nests level (.str s)
  | arr {level reach : Nat} {items : List Source} (own : level ≤ reach)
      (each : ∀ s ∈ items, Nests (level + 1) s) (within : ∀ s ∈ items, s.reach ≤ reach) :
      Nests level (.arr items reach)
  | obj {level reach : Nat} {members : List (Option String × Source)} (own : level ≤ reach)
      (each : ∀ m ∈ members, Nests (level + 1) m.2) (within : ∀ m ∈ members, m.2.reach ≤ reach) :
      Nests level (.obj members reach)

/-- A part of a value, so many containers down. -/
inductive Inside : Nat → Source → Source → Prop where
  | here {s : Source} : Inside 0 s s
  | item {n reach : Nat} {items : List Source} {s part : Source} (among : s ∈ items)
      (deeper : Inside n s part) : Inside (n + 1) (.arr items reach) part
  | member {n reach : Nat} {members : List (Option String × Source)}
      {m : Option String × Source} {part : Source} (among : m ∈ members)
      (deeper : Inside n m.2 part) : Inside (n + 1) (.obj members reach) part

theorem Nests.inside {level n : Nat} {s part : Source} (h : Nests level s) (down : Inside n s part) :
    Nests (level + n) part := by
  induction down generalizing level with
  | here => exact h
  | @item n _ _ _ _ among _ ih =>
    cases h with
    | arr _ each _ =>
      rw [Nat.add_comm n 1, ← Nat.add_assoc]
      exact ih (each _ among)
  | @member n _ _ _ _ among _ ih =>
    cases h with
    | obj _ each _ =>
      rw [Nat.add_comm n 1, ← Nat.add_assoc]
      exact ih (each _ among)

/-! ## What the machine keeps up -/

/-- An open container has its level, and it has noted the levels of its contents so far. -/
def Frame.Open (level : Nat) : Frame → Prop
  | .items own reach done =>
    own = level ∧ level ≤ reach ∧ ∀ s ∈ done, Nests (level + 1) s ∧ s.reach ≤ reach
  | .members own reach done _ =>
    own = level ∧ level ≤ reach ∧ ∀ m ∈ done, Nests (level + 1) m.2 ∧ m.2.reach ≤ reach

/-- The open containers are at consecutive levels. -/
def StackOpen : List Frame → Prop
  | [] => True
  | f :: rest => f.Open (nextLevel rest) ∧ StackOpen rest

/-- What is built so far nests. -/
def Builder.Sound : Builder → Prop
  | finished s => Nests 1 s
  | building stack _ => StackOpen stack

theorem Builder.sound_add {v : Source} {stack : List Frame} (value : Nests (nextLevel stack) v)
    (opened : StackOpen stack) : (add v stack).Sound := by
  cases stack with
  | nil => exact value
  | cons f rest =>
    obtain ⟨top, below⟩ := opened
    cases f with
    | items own reach done =>
      obtain ⟨rfl, low, each⟩ := top
      refine ⟨⟨rfl, Nat.le_trans low (Nat.le_max_left _ _), fun s there => ?_⟩, below⟩
      rcases List.mem_cons.1 there with rfl | there
      · exact ⟨value, Nat.le_max_right _ _⟩
      · exact ⟨(each s there).1, Nat.le_trans (each s there).2 (Nat.le_max_left _ _)⟩
    | members own reach done key =>
      obtain ⟨rfl, low, each⟩ := top
      refine ⟨⟨rfl, Nat.le_trans low (Nat.le_max_left _ _), fun m there => ?_⟩, below⟩
      rcases List.mem_cons.1 there with rfl | there
      · exact ⟨value, Nat.le_max_right _ _⟩
      · exact ⟨(each m there).1, Nat.le_trans (each m there).2 (Nat.le_max_left _ _)⟩

theorem Builder.sound_beginValue {stack : List Frame} {t : Token} {b : Builder}
    (opened : StackOpen stack) (h : beginValue stack t = some b) : b.Sound := by
  unfold beginValue at h
  split at h
  · cases h; exact sound_add .null opened
  · cases h; exact sound_add .bool opened
  · cases h; exact sound_add .num opened
  · cases h; exact sound_add .str opened
  · cases h; exact ⟨⟨rfl, Nat.le_refl _, nofun⟩, opened⟩
  · cases h; exact ⟨⟨rfl, Nat.le_refl _, nofun⟩, opened⟩
  · cases h

theorem Builder.sound_close {stack : List Frame} {t : Token} {b : Builder}
    (opened : StackOpen stack) (h : close stack t = some b) : b.Sound := by
  unfold close at h
  split at h
  · cases h
    obtain ⟨⟨rfl, low, each⟩, below⟩ := opened
    exact sound_add (.arr low (fun s there => (each s (List.mem_reverse.1 there)).1)
      fun s there => (each s (List.mem_reverse.1 there)).2) below
  · cases h
    obtain ⟨⟨rfl, low, each⟩, below⟩ := opened
    exact sound_add (.obj low (fun m there => (each m (List.mem_reverse.1 there)).1)
      fun m there => (each m (List.mem_reverse.1 there)).2) below
  · cases h

theorem Builder.sound_takeKey {stack : List Frame} {t : Token} {b : Builder}
    (opened : StackOpen stack) (h : takeKey stack t = some b) : b.Sound := by
  unfold takeKey at h
  split at h
  · cases h
    exact opened
  · cases h

theorem Builder.sound_step {b b' : Builder} {t : Token} (sound : b.Sound) (h : b.step t = some b') :
    b'.Sound := by
  unfold step at h
  split at h
  · cases h
  · exact sound_beginValue sound h
  · split at h
    · exact sound_close sound h
    · exact sound_beginValue sound h
  · split at h
    · exact sound_close sound h
    · exact sound_takeKey sound h
  · exact sound_takeKey sound h
  · split at h
    · cases h
      exact sound
    · cases h
  · split at h
    · split at h
      · cases h
        exact sound
      · cases h
        exact sound
      · cases h
    · exact sound_close sound h

theorem Builder.nests_of_run {ts : List Token} {b : Builder} {s : Source} (sound : b.Sound)
    (h : b.run ts = some s) : Nests 1 s := by
  induction ts generalizing b with
  | nil =>
    cases b with
    | finished result =>
      cases h
      exact sound
    | building stack expect => cases h
  | cons t rest ih =>
    rw [run] at h
    split at h
    · next next stepped => exact ih (sound_step sound stepped) h
    · cases h

/-- The tree of a text nests from the first level on. -/
theorem nests_of_ofChars? {cs : List Char} {s : Source} (h : ofChars? cs = some s) : Nests 1 s := by
  obtain ⟨ts, -, built⟩ := Option.bind_eq_some_iff.1 h
  have start : (Builder.building [] .value).Sound := trivial
  exact Builder.nests_of_run start built

end AppAdmission.Json.Source

import HundredDays.BumpArena.Requests

namespace HundredDays.BumpArena

open HundredDays.Semantics

/-! Histories of requests and resets. -/

variable {order buffer capacity : Nat} {session after : Session} {request : Request}

/-- A request as it is meant: an aligned block within the buffer, apart from what was returned since the last reset,
or no block and no trace of the request. -/
structure Honoured (buffer capacity : Nat) (session : Session) (request : Request) : Prop where
  aligned : ∀ ptr, (session.serve request).1 = some ptr → request.align ∣ ptr
  inside : ∀ ptr, (session.serve request).1 = some ptr → buffer ≤ ptr ∧ ptr + request.bytes ≤ buffer + capacity
  apart : ∀ ptr, (session.serve request).1 = some ptr → ∀ range ∈ session.ranges,
    ptr + request.bytes ≤ range.start ∨ range.start + range.length ≤ ptr
  forward : session.arena.offset ≤ (session.serve request).2.arena.offset ∧
    (session.serve request).2.arena.offset ≤ capacity
  untouched : (session.serve request).1 = none →
    (session.serve request).2.arena.offset = session.arena.offset ∧ (session.serve request).2.stats = session.stats

/-- The offset behind the block does not wrap, or it wraps to one behind the buffer.  In C++ it may also wrap to the
offset before the request, when the address of the block wraps to null. -/
def Request.Allowed (session : Session) (request : Request) : Prop :=
  needed session.arena request.bytes request.align < 2 ^ 64 ∨
    session.arena.capacity < needed session.arena request.bytes request.align % 2 ^ 64 ∨
    ¬ request.CountsNull ∧ start session.arena request.align = 2 ^ 64 ∧
      needed session.arena request.bytes request.align % 2 ^ 64 = session.arena.offset

def Allowed (session : Session) : Call → Prop
  | .request request => (∃ order < 64, request.align = 2 ^ order) ∧ request.Allowed session
  | .reset => True

/-- The arena is a buffer within the addresses, and what was returned is before its offset. -/
structure Valid (buffer capacity : Nat) (session : Session) : Prop where
  base : session.arena.buffer = buffer
  size : session.arena.capacity = capacity
  placed : 0 < buffer
  ending : buffer + capacity < 2 ^ 64
  inside : session.arena.offset ≤ capacity
  below : ∀ range ∈ session.ranges, range.start + range.length ≤ buffer + session.arena.offset

namespace Valid

theorem initial (placed : 0 < buffer) (ending : buffer + capacity < 2 ^ 64) :
    Valid buffer capacity (Session.initial buffer capacity) :=
  ⟨rfl, rfl, placed, ending, Nat.zero_le _, by simp [Session.initial]⟩

theorem outcome (valid : Valid buffer capacity session) (shift : order < 64) (aligned : request.align = 2 ^ order) :
    (capacity < needed session.arena request.bytes request.align % 2 ^ 64 ∧
      session.serve request = (none, session)) ∨
    (needed session.arena request.bytes request.align % 2 ^ 64 ≤ capacity ∧
      ∃ stats, session.serve request = (address session.arena request.align, {
        arena := { session.arena with offset := needed session.arena request.bytes request.align % 2 ^ 64 }
        stats
        ranges := ((address session.arena request.align).toList.map fun start =>
          ⟨start, request.bytes⟩) ++ session.ranges }) ∧
        (address session.arena request.align = none → (stats = session.stats ↔ ¬ request.CountsNull))) := by
  have served := @serve_cases order session request (by rw [valid.base, valid.size]; exact valid.ending)
    (by rw [valid.size]; exact valid.inside) shift aligned
  rwa [valid.size] at served

/-- Where the first aligned address is, and what follows for the address that is returned. -/
theorem address_cases (valid : Valid buffer capacity session) (shift : order < 64) :
    (start session.arena (2 ^ order) = 2 ^ 64 ∧ address session.arena (2 ^ order) = none) ∨
    (start session.arena (2 ^ order) < 2 ^ 64 ∧
      address session.arena (2 ^ order) = some (start session.arena (2 ^ order))) := by
  obtain ⟨first, _, placed, ending, inside, _⟩ := valid
  have lower := (start_bounds session.arena order).1
  have upper := @start_le session.arena order (by omega) shift
  by_cases top : start session.arena (2 ^ order) = 2 ^ 64
  · exact .inl ⟨top, by rw [address, top, Nat.mod_self, pointer, if_pos rfl]⟩
  · have less : start session.arena (2 ^ order) < 2 ^ 64 := Nat.lt_of_le_of_ne upper top
    refine .inr ⟨less, ?_⟩
    rw [address, Nat.mod_eq_of_lt less, pointer, if_neg (by omega)]

/-- A block whose end is within the buffer follows what was returned. -/
theorem granted (valid : Valid buffer capacity session) (shift : order < 64) (aligned : request.align = 2 ^ order)
    (fits : needed session.arena request.bytes request.align ≤ capacity) :
    ∃ stats, session.serve request = (some (start session.arena request.align), {
      arena := { session.arena with offset := needed session.arena request.bytes request.align }
      stats
      ranges := ⟨start session.arena request.align, request.bytes⟩ :: session.ranges }) := by
  have ending := valid.ending
  have first := valid.base
  have exact : needed session.arena request.bytes request.align % 2 ^ 64 =
      needed session.arena request.bytes request.align := Nat.mod_eq_of_lt (by omega)
  obtain ⟨full, _⟩ | ⟨_, stats, served, _⟩ := valid.outcome shift aligned
  · omega
  · rw [needed, aligned] at fits
    obtain ⟨top, _⟩ | ⟨_, given⟩ := valid.address_cases shift
    · omega
    · refine ⟨stats, ?_⟩
      rw [served, aligned, given, ← aligned, exact]
      rfl

theorem allowed_of_honoured (valid : Valid buffer capacity session) (shift : order < 64)
    (aligned : request.align = 2 ^ order) (honoured : Honoured buffer capacity session request) :
    request.Allowed session := by
  have first := valid.base
  have ending := valid.ending
  rw [Request.Allowed, valid.size]
  obtain ⟨full, _⟩ | ⟨_, stats, served, counted⟩ := valid.outcome shift aligned
  · exact .inr (.inl full)
  · rw [aligned] at served counted ⊢
    obtain ⟨top, null⟩ | ⟨_, given⟩ := valid.address_cases shift
    · obtain ⟨offset, same⟩ := honoured.untouched (by rw [served, null])
      rw [served] at offset same
      exact .inr (.inr ⟨(counted null).mp same, top, offset⟩)
    · have bounds := (honoured.inside _ (by rw [served, given])).2
      rw [needed]
      exact .inl (by omega)

/-- A request that meets the condition leaves everything alone or gets its block. -/
theorem served (valid : Valid buffer capacity session) (shift : order < 64) (aligned : request.align = 2 ^ order)
    (allowed : request.Allowed session) : session.serve request = (none, session) ∨
      needed session.arena request.bytes request.align ≤ capacity ∧
        ∃ stats, session.serve request = (some (start session.arena request.align), {
          arena := { session.arena with offset := needed session.arena request.bytes request.align }
          stats
          ranges := ⟨start session.arena request.align, request.bytes⟩ :: session.ranges }) := by
  rw [Request.Allowed, valid.size] at allowed
  obtain ⟨_, refused⟩ | ⟨room, stats, accepted, counted⟩ := valid.outcome shift aligned
  · exact .inl refused
  · obtain fits | full | ⟨counts, top, offset⟩ := allowed
    · rw [Nat.mod_eq_of_lt fits] at room
      exact .inr ⟨room, valid.granted shift aligned room⟩
    · exact absurd room (Nat.not_le_of_lt full)
    · have null : address session.arena request.align = none := by
        rw [address, top, Nat.mod_self, pointer, if_pos rfl]
      have same := (counted null).mpr counts
      rw [null, offset, same] at accepted
      exact .inl accepted

theorem honoured_of_allowed (valid : Valid buffer capacity session) (shift : order < 64)
    (aligned : request.align = 2 ^ order) (allowed : request.Allowed session) :
    Honoured buffer capacity session request := by
  have first := valid.base
  have inside := valid.inside
  have lower := (start_bounds session.arena order).1
  obtain served | ⟨room, stats, served⟩ := valid.served shift aligned allowed
  · refine ⟨?_, ?_, ?_, ?_, ?_⟩
    all_goals simp [served, inside]
  · rw [needed, aligned] at room
    rw [aligned, needed] at served
    refine ⟨?_, ?_, ?_, ?_, ?_⟩
    · rw [served, aligned]
      intro ptr returned
      cases returned
      exact start_dvd session.arena (2 ^ order)
    · rw [served]
      intro ptr returned
      cases returned
      omega
    · rw [served]
      intro ptr returned range listed
      cases returned
      have before := valid.below range listed
      omega
    · rw [served]
      change session.arena.offset ≤ start session.arena (2 ^ order) - session.arena.buffer + request.bytes ∧
        start session.arena (2 ^ order) - session.arena.buffer + request.bytes ≤ capacity
      omega
    · simp [served]

theorem step (valid : Valid buffer capacity session) (call : Call) (allowed : Allowed session call)
    (stepped : session.step call = some after) : Valid buffer capacity after := by
  cases call with
  | request request =>
      obtain ⟨⟨order, shift, aligned⟩, meant⟩ := allowed
      cases stepped
      have lower := (start_bounds session.arena order).1
      obtain served | ⟨room, stats, served⟩ := valid.served shift aligned meant
      · rw [served]
        exact valid
      · obtain ⟨base, size, placed, ending, inside, below⟩ := valid
        rw [served]
        refine ⟨base, size, placed, ending, room, ?_⟩
        intro range listed
        change range.start + range.length ≤ buffer + needed session.arena request.bytes request.align
        rw [needed, aligned]
        cases List.mem_cons.mp listed with
        | inl newest =>
            rw [newest, aligned]
            change start session.arena (2 ^ order) + request.bytes ≤ _
            omega
        | inr earlier =>
            have before := below range earlier
            omega
  | reset =>
      cases stepped
      exact ⟨valid.base, valid.size, valid.placed, valid.ending, Nat.zero_le _, by simp⟩

end Valid

/-- In every state that is reached while each request meets the condition, the next request is honoured exactly when
it meets it too. -/
theorem allocate_honoured_iff (buffer capacity : Nat) (placed : 0 < buffer) (ending : buffer + capacity < 2 ^ 64)
    (calls : List Call) (session : Session)
    (allowed : Meets Session.step Allowed (Session.initial buffer capacity) calls)
    (completed : run Session.step (Session.initial buffer capacity) calls = some session)
    (request : Request) (order : Nat) (shift : order < 64) (aligned : request.align = 2 ^ order) :
    Honoured buffer capacity session request ↔ request.Allowed session := by
  have valid := run_invariant_meeting (Valid buffer capacity)
    (fun _ call _ valid met stepped => valid.step call met stepped) (Valid.initial placed ending) allowed completed
  exact ⟨valid.allowed_of_honoured shift aligned, valid.honoured_of_allowed shift aligned⟩

/-- An arena of ten kilobytes in the page at 4096. -/
def page : Session := Session.initial 4096 10240

theorem allocate_honoured_iff_page : Honoured 4096 10240 page (.arenaAlloc 100 16) ↔
    (Request.arenaAlloc 100 16).Allowed page :=
  allocate_honoured_iff 4096 10240 (by decide) (by decide) [] page trivial rfl (.arenaAlloc 100 16) 4 (by decide) rfl

/-- The arena behind a first block of 64 bytes. -/
def used : Session := (page.serve (.allocate 64 16)).2

/-- Nearly all of the addresses fit behind the first block, in C++ and in C, and so do `2 ^ 61` elements of 8 bytes. -/
theorem allocate_overlong : (used.serve (.allocate (2 ^ 64 - 32) 16)).1 = some 4160 ∧
    ¬ Honoured 4096 10240 used (.allocate (2 ^ 64 - 32) 16) ∧
    (used.serve (.arenaAlloc (2 ^ 64 - 32) 16)).1 = some 4160 ∧
    ¬ Honoured 4096 10240 used (.arenaAlloc (2 ^ 64 - 32) 16) ∧
    (used.serve (.allocator (2 ^ 61) 8 8 true)).1 = some 4160 ∧
    ¬ Honoured 4096 10240 used (.allocator (2 ^ 61) 8 8 true) := by
  have cpp : (used.serve (.allocate (2 ^ 64 - 32) 16)).1 = some 4160 := by decide
  have c : (used.serve (.arenaAlloc (2 ^ 64 - 32) 16)).1 = some 4160 := by decide
  have elements : (used.serve (.allocator (2 ^ 61) 8 8 true)).1 = some 4160 := by decide
  refine ⟨cpp, fun honoured => ?_, c, fun honoured => ?_, elements, fun honoured => ?_⟩
  · exact absurd (honoured.inside 4160 cpp).2 (by decide)
  · exact absurd (honoured.inside 4160 c).2 (by decide)
  · exact absurd (honoured.inside 4160 elements).2 (by decide)

end HundredDays.BumpArena

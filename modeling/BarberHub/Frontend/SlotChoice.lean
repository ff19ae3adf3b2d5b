import BarberHub.Frontend.BookingPage

/-!
# The slots of the booking page

The asynchronous part of `wireBooking` of `frontend/app.js`: `refresh` asks for
the free slots of what is chosen and fills its box when the answer comes, and
`paintActionBar` puts up the button that books.  Answers come in any order, also
to what is no longer chosen, and the visitor goes on clicking.  This is one
visit of a signed-in visitor until the page is left; the texts of the bar are
what it is painted from, a choice.
-/

namespace BarberHub.Frontend

open Runs

/-! ## A visit -/

/-- What a request for `available-slots` asks for. -/
structure SlotQuery where
  barber : String
  service : String
  date : ℤ
  deriving DecidableEq

deriving instance DecidableEq for Choice

/-- The bar with the button that books, and the choice it was painted from. -/
structure ActionBar where
  number : ℕ
  shown : Choice
  disabled : Bool
  deriving DecidableEq

/-- The body of a `POST /appointments`, and the bar that was clicked. -/
structure BookingPost where
  barberId : String
  serviceId : String
  startTime : String
  bar : ActionBar
  deriving DecidableEq

/-- What a visit has come to: the choice with the strip of days, the requests
`refresh` has sent and those of them that are answered, the box in the page and
its buttons, the bar, the bookings sent and those that were refused, and every
list of slots the API has answered with. -/
structure Visit where
  page : BookingPage
  asked : List SlotQuery := []
  heard : List ℕ := []
  /-- The request whose answer fills the box in the page. -/
  box : Option ℕ := none
  slots : List String := []
  bar : Option ActionBar := none
  painted : ℕ := 0
  posts : List BookingPost := []
  refused : List ℕ := []
  offers : List (SlotQuery × List String) := []

namespace Visit

/-- `paintActionBar`, of the choice as it is now. -/
def paintActionBar (ready : Bool) (visit : Visit) : Visit :=
  if ready then
    { visit with
      bar := some ⟨visit.painted, visit.page.choice, false⟩
      painted := visit.painted + 1 }
  else { visit with bar := none }

/-- `refresh` up to the request it waits for. -/
def refresh (today : ℤ) (choice : Choice) (visit : Visit) : Visit :=
  let visit := { visit with page := Frontend.refresh today choice, slots := [] }
  match choice.service, choice.barber with
  | some service, some barber =>
      { visit with
        asked := visit.asked ++ [⟨barber, service, choice.date⟩]
        box := some visit.asked.length }
  | _, _ => ({ visit with box := none }).paintActionBar false

/-- The rest of `refresh`: the slots, or none where the request failed.  A box
that is no longer in the page is filled where nobody sees it. -/
def answer (number : ℕ) (starts : Option (List String)) (visit : Visit) :
    Visit :=
  match visit.asked[number]? with
  | none => visit
  | some query =>
      if number ∈ visit.heard then visit
      else
        ({ visit with
          heard := number :: visit.heard
          slots := if visit.box = some number then starts.getD []
            else visit.slots
          offers := visit.offers ++ (starts.map fun list => (query, list)).toList
          }).paintActionBar visit.page.choice.slot.isSome

/-- A click on a slot. -/
def choose (start : String) (visit : Visit) : Visit :=
  if start ∈ visit.slots then
    ({ visit with page := { visit.page with
      choice := { visit.page.choice with slot := some start } } }).paintActionBar
        true
  else visit

/-- A click on the button of the bar.  What is missing in the choice is a
`TypeError` that puts a banner in the place of the slots. -/
def book (visit : Visit) : Visit :=
  match visit.bar with
  | none => visit
  | some bar =>
      if bar.disabled then visit
      else
        match visit.page.choice.barber, visit.page.choice.service,
            visit.page.choice.slot with
        | some barber, some service, some start =>
            { visit with
              bar := some { bar with disabled := true }
              posts := visit.posts ++ [⟨barber, service, start, bar⟩] }
        | _, _, _ => { visit with slots := [] }

/-- A booking is refused; `SLOT_TAKEN` shows the fresh list.  Without a box the
message is a `TypeError`, and the list stays away. -/
def refuse (today : ℤ) (number : ℕ) (slotTaken : Bool) (visit : Visit) : Visit :=
  match visit.posts[number]? with
  | none => visit
  | some post =>
      if number ∈ visit.refused then visit
      else
        let visit := { visit with
          refused := number :: visit.refused
          slots := []
          bar := visit.bar.map fun bar =>
            if bar.number = post.bar.number then { bar with disabled := false }
            else bar }
        if slotTaken ∧ visit.box ≠ none then
          visit.refresh today visit.page.choice
        else visit

end Visit

/-- What happens during a visit. -/
inductive VisitEvent where
  | service (id : String)
  | barber (id : String)
  | day (date : List Char)
  | slot (start : String)
  | book
  | answered (number : ℕ) (starts : Option (List String))
  | refused (number : ℕ) (slotTaken : Bool)

/-- The visit after an event, on some day. -/
def Visit.step (barbers : List String) (visit : Visit) :
    ℤ × VisitEvent → Visit
  | (today, .service id) =>
      visit.refresh today
        { visit.page.choice with service := some id, slot := none }
  | (today, .barber id) =>
      visit.refresh today
        { visit.page.choice with barber := barbers.find? (· = id), slot := none }
  | (today, .day date) =>
      match visit.page.chosenBy (.day date) with
      | some d =>
          visit.refresh today { visit.page.choice with date := d, slot := none }
      | none => visit
  | (_, .slot start) => visit.choose start
  | (_, .book) => visit.book
  | (_, .answered number starts) => visit.answer number starts
  | (today, .refused number slotTaken) => visit.refuse today number slotTaken

/-- A visit from `wireBooking` on. -/
def Visit.after (barbers : List String) (today : ℤ)
    (events : List (ℤ × VisitEvent)) : Visit :=
  events.foldl (Visit.step barbers) { page := openedPage today }

/-! ## What is offered -/

/-- The slots that were asked for are those of the choice. -/
structure SlotQuery.IsFor (query : SlotQuery) (choice : Choice) : Prop where
  barber : choice.barber = some query.barber
  service : choice.service = some query.service
  date : choice.date = query.date

/-- The API has listed the start for what is chosen. -/
def OfferedFor (offers : List (SlotQuery × List String)) (choice : Choice)
    (start : String) : Prop :=
  ∃ query starts, query.IsFor choice ∧ (query, starts) ∈ offers ∧ start ∈ starts

/-- The booking is what the bar showed, and the API had listed its start for
that barber, that service and that day. -/
structure BookingPost.AsShown (offers : List (SlotQuery × List String))
    (post : BookingPost) : Prop where
  barber : post.bar.shown.barber = some post.barberId
  service : post.bar.shown.service = some post.serviceId
  start : post.bar.shown.slot = some post.startTime
  offered : OfferedFor offers post.bar.shown post.startTime

/-- A request is not answered yet. -/
def Visit.Waiting (visit : Visit) : Prop :=
  ∃ number < visit.asked.length, number ∉ visit.heard

/-- The invariant of a visit. -/
structure Visit.Sound (visit : Visit) : Prop where
  box : ∀ number, visit.box = some number →
    ∃ query, visit.asked[number]? = some query ∧ query.IsFor visit.page.choice
  slots : ∀ start ∈ visit.slots, OfferedFor visit.offers visit.page.choice start
  chosen : ∀ start, visit.page.choice.slot = some start →
    OfferedFor visit.offers visit.page.choice start ∧
      ∃ bar, visit.bar = some bar ∧ bar.shown = visit.page.choice
  bar : visit.bar ≠ none → visit.page.choice.slot ≠ none ∨ visit.Waiting
  posts : ∀ post ∈ visit.posts, post.AsShown visit.offers
  numbered : ∀ number ∈ visit.heard, number < visit.asked.length

section

variable {visit : Visit} {offers more : List (SlotQuery × List String)}
  {choice : Choice} {start : String}

theorem OfferedFor.append (h : OfferedFor offers choice start) :
    OfferedFor (offers ++ more) choice start := by
  obtain ⟨query, starts, hfor, hmem, hstart⟩ := h
  exact ⟨query, starts, hfor, List.mem_append_left _ hmem, hstart⟩

theorem BookingPost.AsShown.append {post : BookingPost}
    (h : post.AsShown offers) : post.AsShown (offers ++ more) :=
  ⟨h.barber, h.service, h.start, h.offered.append⟩

/-- Which slot is chosen does not matter for what is offered. -/
theorem OfferedFor.slot (h : OfferedFor offers choice start)
    (slot : Option String) :
    OfferedFor offers { choice with slot := slot } start := by
  obtain ⟨query, starts, hfor, hmem, hstart⟩ := h
  exact ⟨query, starts, ⟨hfor.barber, hfor.service, hfor.date⟩, hmem, hstart⟩

end

namespace Visit

variable {visit : Visit} {today : ℤ} {choice : Choice}

@[simp] theorem choice_refresh (visit : Visit) (today : ℤ) (choice : Choice) :
    (visit.refresh today choice).page.choice = choice := by
  rw [refresh, Frontend.refresh]
  split <;> split <;> rfl

/-- A choice without a slot, or the one there is, may be refreshed. -/
theorem Sound.refresh (h : visit.Sound)
    (hslot : choice.slot = none ∨ choice = visit.page.choice) :
    (visit.refresh today choice).Sound := by
  have hchosen : ∀ start, choice.slot = some start →
      OfferedFor visit.offers choice start ∧
        ∃ bar, visit.bar = some bar ∧ bar.shown = choice := by
    intro start hstart
    rcases hslot with hnone | hsame
    · simp [hnone] at hstart
    · rw [hsame] at hstart ⊢
      exact h.chosen start hstart
  have hpage := choice_refresh visit today choice
  rw [Visit.refresh] at hpage ⊢
  dsimp only at hpage ⊢
  split at hpage
  · next service barber hservice hbarber =>
    dsimp only at hpage ⊢
    constructor
    · intro number hbox
      obtain rfl := Option.some.inj hbox
      refine ⟨⟨barber, service, choice.date⟩, by simp, ?_⟩
      rw [hpage]
      exact ⟨hbarber, hservice, rfl⟩
    · exact fun _ hstart => absurd hstart List.not_mem_nil
    · rw [hpage]
      exact hchosen
    · intro _
      refine Or.inr ⟨visit.asked.length, by simp, ?_⟩
      exact fun hheard => absurd (h.numbered _ hheard) (lt_irrefl _)
    · exact h.posts
    · intro number hheard
      have hlt := h.numbered number hheard
      simp only [List.length_append, List.length_singleton]
      omega
  · next hincomplete =>
    constructor
    · simp [paintActionBar]
    · simp [paintActionBar]
    · intro start hstart
      have hsome : choice.slot = some start := by
        rw [← hpage]
        exact hstart
      obtain ⟨⟨query, -, hfor, -⟩, -⟩ := hchosen start hsome
      exact absurd hfor.barber (hincomplete _ _ hfor.service)
    · simp [paintActionBar]
    · exact h.posts
    · exact h.numbered

theorem Sound.choose (h : visit.Sound) (start : String) :
    (visit.choose start).Sound := by
  rw [Visit.choose]
  split
  · next hstart =>
    have hoffered := h.slots start hstart
    constructor
    · intro number hbox
      obtain ⟨query, hasked, hfor⟩ := h.box number hbox
      exact ⟨query, hasked, hfor.barber, hfor.service, hfor.date⟩
    · exact fun other hother => (h.slots other hother).slot _
    · intro other hother
      obtain rfl : start = other := Option.some.inj hother
      exact ⟨hoffered.slot _, _, rfl, rfl⟩
    · exact fun _ => Or.inl (by simp [paintActionBar])
    · exact h.posts
    · exact h.numbered
  · exact h

theorem Sound.book (h : visit.Sound) : visit.book.Sound := by
  rw [Visit.book]
  split
  · exact h
  next bar hbar =>
  split
  · exact h
  split
  · next barber service start hbarber hservice hstart =>
    obtain ⟨hoffered, bar', hbar', hshown⟩ := h.chosen start hstart
    obtain rfl : bar = bar' := Option.some.inj (hbar.symm.trans hbar')
    refine ⟨h.box, h.slots, ?_, ?_, ?_, h.numbered⟩
    · intro other hother
      exact ⟨(h.chosen other hother).1, _, rfl, hshown⟩
    · intro _
      exact h.bar (by simp [hbar])
    · intro post hpost
      rcases List.mem_append.mp hpost with hold | hnew
      · exact h.posts post hold
      · obtain rfl := List.mem_singleton.mp hnew
        constructor
        · rw [hshown, hbarber]
        · rw [hshown, hservice]
        · rw [hshown, hstart]
        · rw [hshown]
          exact hoffered
  · exact ⟨h.box, fun _ hstart => absurd hstart List.not_mem_nil, h.chosen,
      h.bar, h.posts, h.numbered⟩

theorem Sound.answer (h : visit.Sound) (number : ℕ)
    (starts : Option (List String)) : (visit.answer number starts).Sound := by
  rw [Visit.answer]
  split
  · exact h
  next query hasked =>
  split
  · exact h
  have hlt : number < visit.asked.length :=
    (List.getElem?_eq_some_iff.mp hasked).1
  -- what the box shows now was asked for the choice
  have hslots : ∀ start ∈ (if visit.box = some number then starts.getD []
      else visit.slots), OfferedFor (visit.offers ++
        (starts.map fun list => (query, list)).toList) visit.page.choice
          start := by
    intro start hstart
    split at hstart
    · next hbox =>
      obtain ⟨query', hasked', hfor⟩ := h.box number hbox
      obtain rfl : query = query' := Option.some.inj (hasked.symm.trans hasked')
      cases starts with
      | none => exact absurd hstart List.not_mem_nil
      | some list => exact ⟨query, list, hfor, by simp, hstart⟩
    · exact (h.slots start hstart).append
  have hnumbered : ∀ other ∈ number :: visit.heard,
      other < visit.asked.length := by
    intro other hother
    rcases List.mem_cons.mp hother with rfl | hother
    · exact hlt
    · exact h.numbered other hother
  cases hslot : visit.page.choice.slot with
  | none =>
      refine ⟨h.box, hslots, ?_, ?_, fun post hpost => (h.posts post hpost).append,
        hnumbered⟩
      · intro start hstart
        simp [paintActionBar, hslot] at hstart
      · simp [paintActionBar]
  | some chosen =>
      refine ⟨h.box, hslots, ?_, ?_, fun post hpost => (h.posts post hpost).append,
        hnumbered⟩
      · intro start hstart
        exact ⟨(h.chosen start hstart).1.append, _, rfl, rfl⟩
      · intro _
        exact Or.inl (by simp [paintActionBar, hslot])

theorem Sound.refuse (h : visit.Sound) (number : ℕ) (slotTaken : Bool) :
    (visit.refuse today number slotTaken).Sound := by
  rw [Visit.refuse]
  split
  · exact h
  next post hpost =>
  split
  · exact h
  have hnext : ({ visit with
      refused := number :: visit.refused
      slots := []
      bar := visit.bar.map fun bar =>
        if bar.number = post.bar.number then { bar with disabled := false }
        else bar } : Visit).Sound := by
    refine ⟨h.box, fun _ hstart => absurd hstart List.not_mem_nil, ?_, ?_,
      h.posts, h.numbered⟩
    · intro start hstart
      obtain ⟨hoffered, bar, hbar, hshown⟩ := h.chosen start hstart
      refine ⟨hoffered, if bar.number = post.bar.number then
        { bar with disabled := false } else bar, ?_, ?_⟩
      · simp [hbar]
      · split
        · exact hshown
        · exact hshown
    · intro hbar
      apply h.bar
      intro hnone
      simp [hnone] at hbar
  dsimp only
  split
  · exact hnext.refresh (Or.inr rfl)
  · exact hnext

theorem Sound.step (h : visit.Sound) (barbers : List String)
    (event : ℤ × VisitEvent) : (visit.step barbers event).Sound := by
  obtain ⟨today, event⟩ := event
  cases event with
  | service id => exact h.refresh (Or.inl rfl)
  | barber id => exact h.refresh (Or.inl rfl)
  | day date =>
      rw [Visit.step]
      split
      · exact h.refresh (Or.inl rfl)
      · exact h
  | slot start => exact h.choose start
  | book => exact h.book
  | answered number starts => exact h.answer number starts
  | refused number slotTaken => exact h.refuse number slotTaken

/-- The invariant, whatever happens. -/
theorem sound_after (barbers : List String) (today : ℤ)
    (events : List (ℤ × VisitEvent)) : (after barbers today events).Sound := by
  induction events using List.reverseRecOn with
  | nil =>
      refine ⟨?_, ?_, ?_, ?_, ?_, ?_⟩ <;> simp [after, openedPage]
  | append_singleton events event ih =>
      rw [after, List.foldl_append]
      exact ih.step barbers event

/-- Whatever is clicked, and in whatever order the answers come: a booking is
sent for what the clicked bar showed and the API had listed, and once all answers
have come the bar is there exactly if a slot is chosen, and shows the choice. -/
theorem books_what_is_shown
    (barbers : List String) (today : ℤ) (events : List (ℤ × VisitEvent)) :
    let visit := after barbers today events
    (∀ post ∈ visit.posts, post.AsShown visit.offers) ∧
      (¬ visit.Waiting → visit.bar.map ActionBar.shown =
        if visit.page.choice.slot = none then none
        else some visit.page.choice) := by
  intro visit
  have hsound : visit.Sound := sound_after barbers today events
  refine ⟨hsound.posts, ?_⟩
  intro hquiet
  cases hslot : visit.page.choice.slot with
  | none =>
      rw [if_pos rfl, Option.map_eq_none_iff]
      by_contra hbar
      rcases hsound.bar hbar with hsome | hwaiting
      · exact hsome hslot
      · exact hquiet hwaiting
  | some start =>
      obtain ⟨-, bar, hbar, hshown⟩ := hsound.chosen start hslot
      rw [if_neg (by simp), hbar, Option.map_some, hshown]

end Visit

end BarberHub.Frontend

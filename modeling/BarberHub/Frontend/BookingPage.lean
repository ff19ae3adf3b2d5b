import BarberHub.Support.CivilCalendar
import BarberHub.Support.Numerals
import BarberHub.Support.Runs

/-!
# The days of the booking page

`wireBooking` of `frontend/app.js`: what is chosen on a shop's page, the strip
of seven days `refresh` renders, and what a click changes.  A JavaScript `Date`
here is always one at local midnight and is its calendar date.  The list of
slots, which a request fills in later, and the bar with the button that books
are left out.
-/

namespace BarberHub.Frontend

open CivilCalendar Numerals

/-! ## Dates and their texts -/

/-- `new Date(year, monthIndex, date)`: years of one or two digits are those of
the twentieth century. -/
def newDate (year monthIndex date : ℤ) : ℤ :=
  makeDay (if 0 ≤ year ∧ year ≤ 99 then 1900 + year else year) monthIndex date

def stripTime (d : ℤ) : ℤ :=
  newDate (yearOf d) (monthOf d - 1) (dayOfMonth d)

/-- `d.setDate(date)`. -/
def setDate (d date : ℤ) : ℤ :=
  makeDay (yearOf d) (monthOf d - 1) date

/-- `text.padStart(2, "0")`. -/
def padStart (text : List Char) : List Char :=
  zeroPadded 2 text

def isoDate (d : ℤ) : List Char :=
  List.intercalate ['-'] [numeral (yearOf d), padStart (numeral (monthOf d)),
    padStart (numeral (dayOfMonth d))]

/-- `const [y, m, d] = text.split("-").map(Number)` and
`new Date(y, m - 1, d)`. -/
def readDate (text : List Char) : Option ℤ :=
  match (text.splitOn '-').map number with
  | y :: m :: d :: _ => some (newDate y (m - 1) d)
  | _ => none

theorem dash_not_mem_numeral {n : ℤ} (hn : 0 ≤ n) : '-' ∉ numeral n :=
  fun hdash => absurd (isDigit_of_mem_numeral hn hdash) (by decide)

theorem dash_not_mem_padStart {n : ℤ} (hn : 0 ≤ n) : '-' ∉ padStart (numeral n) :=
  fun hdash => absurd (isDigit_of_mem_zeroPadded hn hdash) (by decide)

theorem dash_not_mem_dateParts (d : ℤ) {year : List Char} (hyear : '-' ∉ year) :
    ∀ text ∈ [year, padStart (numeral (monthOf d)),
      padStart (numeral (dayOfMonth d))], '-' ∉ text := by
  have hmonth := (monthOf_spec d).1
  have hday := dayOfMonth_pos d
  intro text htext
  simp only [List.mem_cons, List.not_mem_nil, or_false] at htext
  rcases htext with rfl | rfl | rfl
  · exact hyear
  · exact dash_not_mem_padStart (by omega)
  · exact dash_not_mem_padStart (by omega)

/-- From the year 0 on, the parts of the text are read as those of the date. -/
theorem readDate_isoDate_eq {d : ℤ} (hd : 0 ≤ yearOf d) :
    readDate (isoDate d) =
      some (newDate (yearOf d) (monthOf d - 1) (dayOfMonth d)) := by
  have hmonth := (monthOf_spec d).1
  have hday := dayOfMonth_pos d
  have hsplit : (isoDate d).splitOn '-' = [numeral (yearOf d),
      padStart (numeral (monthOf d)), padStart (numeral (dayOfMonth d))] :=
    List.splitOn_intercalate _
      (dash_not_mem_dateParts d (dash_not_mem_numeral hd)) (List.cons_ne_nil _ _)
  rw [readDate, hsplit]
  simp only [List.map_cons, List.map_nil, padStart, number_zeroPadded]
  rw [number_numeral hd, number_numeral (by omega), number_numeral (by omega)]

/-- Before the year 0, the text begins with a sign, which is read as a dash: the
number of the year is taken for a month, and the month for a day. -/
theorem readDate_isoDate_of_neg {d : ℤ} (hd : yearOf d < 0) :
    readDate (isoDate d) = some (newDate 0 (- yearOf d - 1) (monthOf d)) := by
  have hmonth := (monthOf_spec d).1
  have hdigits : numeral (yearOf d) = '-' :: numeral (- yearOf d) := by
    rw [numeral, numeral, if_pos hd, if_neg (by omega), Int.natAbs_neg]
  have hsplit : (isoDate d).splitOn '-' = [[], numeral (- yearOf d),
      padStart (numeral (monthOf d)), padStart (numeral (dayOfMonth d))] := by
    have htext : isoDate d = List.intercalate ['-'] [[], numeral (- yearOf d),
        padStart (numeral (monthOf d)), padStart (numeral (dayOfMonth d))] := by
      rw [isoDate, hdigits]
      simp [List.intercalate]
    rw [htext]
    apply List.splitOn_intercalate
    · refine List.forall_mem_cons.mpr ⟨List.not_mem_nil, ?_⟩
      exact dash_not_mem_dateParts d (dash_not_mem_numeral (by omega))
    · exact List.cons_ne_nil _ _
  rw [readDate, hsplit]
  simp only [List.map_cons, List.map_nil, padStart, number_zeroPadded]
  rw [number_numeral (by omega), number_numeral (by omega)]
  rfl

/-- The years that `new Date` takes for those of the twentieth century. -/
def ShortYear (d : ℤ) : Prop :=
  0 ≤ yearOf d ∧ yearOf d ≤ 99

instance (d : ℤ) : Decidable (ShortYear d) :=
  inferInstanceAs (Decidable (_ ∧ _))

/-- From the year 100 on, reading the text of a date gives the date. -/
theorem readDate_isoDate {d : ℤ} (hd : 100 ≤ yearOf d) :
    readDate (isoDate d) = some d := by
  rw [readDate_isoDate_eq (by omega), newDate, if_neg (by omega),
    makeDay_dayOfMonth]

/-- The text of a date before the year 100 is read as a date from 1900 on. -/
theorem le_yearOf_of_readDate {d d' : ℤ} (hd : yearOf d < 100)
    (hread : readDate (isoDate d) = some d') : 1900 ≤ yearOf d' := by
  have hmonth := (monthOf_spec d).1
  by_cases hneg : yearOf d < 0
  · rw [readDate_isoDate_of_neg hneg, newDate, if_pos (by omega)] at hread
    rw [← Option.some.inj hread]
    exact le_yearOf_makeDay _ (by omega) (by omega)
  · rw [readDate_isoDate_eq (by omega), newDate, if_pos (by omega)] at hread
    have hyear := le_yearOf_makeDay (1900 + yearOf d)
      (by omega : 0 ≤ monthOf d - 1) (dayOfMonth_pos d)
    rw [← Option.some.inj hread]
    omega

theorem stripTime_eq {d : ℤ} (hd : ¬ ShortYear d) : stripTime d = d := by
  rw [ShortYear] at hd
  rw [stripTime, newDate, if_neg hd, makeDay_dayOfMonth]

theorem le_yearOf_stripTime {d : ℤ} (hd : ShortYear d) :
    1900 ≤ yearOf (stripTime d) := by
  have hmonth := (monthOf_spec d).1
  have hyear := le_yearOf_makeDay (1900 + yearOf d)
    (by omega : 0 ≤ monthOf d - 1) (dayOfMonth_pos d)
  rw [ShortYear] at hd
  rw [stripTime, newDate, if_pos hd]
  omega

/-! ## What is chosen and what is shown -/

/-- `choice`: the service and the barber by their ids, the slot by its start. -/
structure Choice where
  service : Option String
  barber : Option String
  date : ℤ
  slot : Option String

/-- What `dayLabel` writes: a word, or the date in the language of the
browser. -/
inductive DayLabel where
  | today
  | tomorrow
  | on (date : ℤ)
deriving DecidableEq

def dayLabel (today date : ℤ) : DayLabel :=
  let diff := date - stripTime today
  if diff = 0 then .today
  else if diff = 1 then .tomorrow
  else .on date

/-- A button of the strip. -/
structure Pill where
  date : List Char
  pressed : Bool
  label : DayLabel
deriving DecidableEq

/-- The choice, and the strip when there is one. -/
structure BookingPage where
  choice : Choice
  schedule : Option (List Pill)

/-- `days` of `refresh`. -/
def days (today chosen : ℤ) : List ℤ :=
  (List.range 7).map fun i : ℕ =>
    setDate chosen (dayOfMonth (stripTime today) + i)

/-- The buttons for `days`. -/
def strip (today chosen : ℤ) : List Pill :=
  (days today chosen).map fun d =>
    ⟨isoDate d, isoDate d = isoDate chosen, dayLabel today d⟩

def refresh (today : ℤ) (choice : Choice) : BookingPage :=
  if choice.service.isNone ∨ choice.barber.isNone then ⟨choice, none⟩
  else ⟨choice, some (strip today choice.date)⟩

/-- The page as `wireBooking` finds it. -/
def openedPage (today : ℤ) : BookingPage :=
  ⟨⟨none, none, stripTime today, none⟩, none⟩

/-- What the visitor does.  `slotTaken` is a booking that is refused because
someone else has taken the slot. -/
inductive Click where
  | service (id : String)
  | barber (id : String)
  | day (date : List Char)
  | slot (start : String)
  | slotTaken

/-- The date a click chooses, if the strip has such a button. -/
def BookingPage.chosenBy (page : BookingPage) : Click → Option ℤ
  | .day date =>
      if ∃ pill ∈ page.schedule.getD [], pill.date = date then readDate date
      else none
  | _ => none

/-- The page after a click.  A click on a day the strip does not have is
none. -/
def BookingPage.click (today : ℤ) (barbers : List String) (page : BookingPage) :
    Click → BookingPage
  | .service id =>
      refresh today { page.choice with service := some id, slot := none }
  | .barber id =>
      refresh today
        { page.choice with barber := barbers.find? (· = id), slot := none }
  | .day date =>
      match page.chosenBy (.day date) with
      | some d => refresh today { page.choice with date := d, slot := none }
      | none => page
  | .slot start => { page with choice := { page.choice with slot := some start } }
  | .slotTaken => refresh today page.choice

/-! ## The coming week -/

/-- A date and the six after it. -/
def comingWeek (today : ℤ) : List ℤ :=
  (List.range 7).map fun i : ℕ => today + i

/-- The strip, if there is one, has the coming week, and the chosen date is in
it. -/
structure ShowsWeek (today : ℤ) (page : BookingPage) : Prop where
  week : ∀ pills, page.schedule = some pills →
    pills.map Pill.date = (comingWeek today).map isoDate
  chosen : page.choice.date ∈ comingWeek today

/-- A day of this month is chosen, or none. -/
def StaysInMonth (today : ℤ) (page : BookingPage) (click : Click) : Prop :=
  ∀ d, page.chosenBy click = some d → SharesMonth d today

instance (today : ℤ) (page : BookingPage) (click : Click) :
    Decidable (StaysInMonth today page click) :=
  inferInstanceAs (Decidable (∀ d ∈ page.chosenBy click, SharesMonth d today))

/-- The strip was made for the chosen date, which is in the coming week and in
this month. -/
structure InStep (today : ℤ) (page : BookingPage) : Prop where
  shown : page.schedule = none ∨ page.schedule = some (strip today page.choice.date)
  ready : page.schedule ≠ none →
    page.choice.service ≠ none ∧ page.choice.barber ≠ none
  week : page.choice.date ∈ comingWeek today
  month : SharesMonth page.choice.date today

theorem mem_comingWeek_iff {today d : ℤ} :
    d ∈ comingWeek today ↔ today ≤ d ∧ d < today + 7 := by
  simp only [comingWeek, List.mem_map, List.mem_range]
  constructor
  · rintro ⟨i, hi, rfl⟩
    omega
  · rintro ⟨hlow, hhigh⟩
    exact ⟨(d - today).toNat, by omega, by omega⟩

/-- A date from 1900 on is not in a week that begins before the year 100. -/
theorem not_mem_comingWeek {today d : ℤ} (htoday : yearOf today < 100)
    (hd : 1900 ≤ yearOf d) : d ∉ comingWeek today := by
  have hbefore := (yearOf_spec today).2
  have hafter := (yearOf_spec d).1
  have hlow := daysBeforeYear_mono (by omega : yearOf today + 1 ≤ 100)
  have hhigh := daysBeforeYear_mono hd
  have hfar : daysBeforeYear 100 + 7 ≤ daysBeforeYear 1900 := by decide
  rw [mem_comingWeek_iff]
  omega

/-- A week from before the year 100 on stays before it, unless it begins in one
of the short years. -/
theorem yearOf_lt_of_mem_comingWeek {today d : ℤ} (htoday : ¬ ShortYear today)
    (hearly : yearOf today < 100) (hd : d ∈ comingWeek today) : yearOf d < 100 := by
  rw [ShortYear] at htoday
  by_contra hlate
  have hbefore := (yearOf_spec today).2
  have hafter := (yearOf_spec d).1
  have hlow := daysBeforeYear_mono (by omega : yearOf today + 1 ≤ 0)
  have hhigh := daysBeforeYear_mono (by omega : 100 ≤ yearOf d)
  have hfar : daysBeforeYear 0 + 7 ≤ daysBeforeYear 100 := by decide
  rw [mem_comingWeek_iff] at hd
  omega

section

variable {today chosen : ℤ} (htoday : ¬ ShortYear today)
include htoday

/-- The strip counts from the day with today's number in the chosen month. -/
theorem days_eq : days today chosen = (List.range 7).map fun i : ℕ =>
    firstOfMonth (yearOf chosen) (monthOf chosen) +
      (today - firstOfMonth (yearOf today) (monthOf today)) + (i : ℤ) := by
  obtain ⟨hlow, hhigh⟩ := (monthOf_spec chosen).1
  rw [days, stripTime_eq htoday]
  apply List.map_congr_left
  intro i _
  rw [setDate, makeDay_eq _ _ hlow hhigh, dayOfMonth]
  omega

theorem days_eq_comingWeek (h : SharesMonth chosen today) :
    days today chosen = comingWeek today := by
  rw [days_eq htoday, comingWeek, sharesMonth_iff.mp h]
  apply List.map_congr_left
  intro i _
  omega

/-- The texts of the strip are those of the coming week only when the chosen
date is in this month. -/
theorem sharesMonth_of_texts (hyear : 100 ≤ yearOf today)
    (hchosen : 100 ≤ yearOf chosen)
    (h : (days today chosen).map isoDate = (comingWeek today).map isoDate) :
    SharesMonth chosen today := by
  obtain ⟨hlow, hhigh⟩ := (monthOf_spec chosen).1
  obtain ⟨first, hfirst⟩ : ∃ first,
      first = firstOfMonth (yearOf chosen) (monthOf chosen) +
        (today - firstOfMonth (yearOf today) (monthOf today)) := ⟨_, rfl⟩
  have hhead : isoDate first = isoDate today := by
    rw [days_eq htoday, ← hfirst, comingWeek] at h
    simpa [List.head?_range] using congrArg List.head? h
  have hyear' : 100 ≤ yearOf first := by
    have hbegun := (firstOfMonth_le_lt today).1
    have hmono := yearOf_mono
      (by omega : firstOfMonth (yearOf chosen) (monthOf chosen) ≤ first)
    rw [(sharesMonth_firstOfMonth (yearOf chosen) hlow hhigh).1] at hmono
    omega
  have heq : first = today := by
    have hread := readDate_isoDate hyear'
    rw [hhead, readDate_isoDate hyear] at hread
    exact (Option.some.inj hread).symm
  rw [sharesMonth_iff]
  omega

/-- What is read from a text of the coming week is its date, or else neither in
the week nor in this month. -/
theorem readDate_of_mem {d : ℤ} {text : List Char}
    (htext : text ∈ (comingWeek today).map isoDate) (hread : readDate text = some d) :
    100 ≤ yearOf today ∧ d ∈ comingWeek today ∨
      d ∉ comingWeek today ∧ ¬ SharesMonth d today := by
  obtain ⟨day, hday, rfl⟩ := List.mem_map.mp htext
  have hyear := yearOf_mono (mem_comingWeek_iff.mp hday).1
  by_cases hearly : yearOf today < 100
  · right
    have hlate := le_yearOf_of_readDate
      (yearOf_lt_of_mem_comingWeek htoday hearly hday) hread
    refine ⟨not_mem_comingWeek hearly hlate, fun hshares => ?_⟩
    have hsame := hshares.1
    omega
  · left
    rw [readDate_isoDate (by omega)] at hread
    obtain rfl := Option.some.inj hread
    exact ⟨by omega, hday⟩

theorem InStep.showsWeek {page : BookingPage} (h : InStep today page) :
    ShowsWeek today page := by
  refine ⟨?_, h.week⟩
  intro pills hpills
  rcases h.shown with hnone | hstrip
  · rw [hnone] at hpills
    exact absurd hpills (by simp)
  · rw [hstrip] at hpills
    obtain rfl := Option.some.inj hpills
    rw [strip, List.map_map, ← days_eq_comingWeek htoday h.month]
    rfl

/-- What a click on the strip chooses is a date of the coming week, or else
neither in the week nor in this month. -/
theorem InStep.of_chosenBy {page : BookingPage} (h : InStep today page)
    {c : Click} {d : ℤ} (hd : page.chosenBy c = some d) :
    page.schedule ≠ none ∧ (100 ≤ yearOf today ∧ d ∈ comingWeek today ∨
      d ∉ comingWeek today ∧ ¬ SharesMonth d today) := by
  cases c with
  | day date =>
      rw [BookingPage.chosenBy] at hd
      split at hd
      next hpill =>
        obtain ⟨pill, hpill, hdate⟩ := hpill
        cases hpills : page.schedule with
        | none =>
            rw [hpills] at hpill
            exact absurd hpill (by simp)
        | some pills =>
            rw [hpills, Option.getD_some] at hpill
            refine ⟨by simp, readDate_of_mem htoday ?_ hd⟩
            rw [← (h.showsWeek htoday).week pills hpills, ← hdate]
            exact List.mem_map_of_mem hpill
      next => exact absurd hd (by simp)
  | _ => exact absurd hd (by simp [BookingPage.chosenBy])

end

@[simp] theorem choice_refresh (today : ℤ) (choice : Choice) :
    (refresh today choice).choice = choice := by
  rw [refresh]
  split <;> rfl

/-- Rendering again keeps the page in step. -/
theorem inStep_refresh {today : ℤ} {choice : Choice}
    (hweek : choice.date ∈ comingWeek today)
    (hmonth : SharesMonth choice.date today) :
    InStep today (refresh today choice) := by
  rw [refresh]
  split
  · exact ⟨Or.inl rfl, fun h => absurd rfl h, hweek, hmonth⟩
  next hready =>
    rw [not_or, Option.isNone_iff_eq_none, Option.isNone_iff_eq_none] at hready
    exact ⟨Or.inr rfl, fun _ => hready, hweek, hmonth⟩

section

variable {today : ℤ} (htoday : ¬ ShortYear today) (barbers : List String)
  {page : BookingPage} {c : Click}
include htoday

theorem InStep.click (h : InStep today page) (hc : StaysInMonth today page c) :
    InStep today (page.click today barbers c) := by
  cases c with
  | service id => exact inStep_refresh h.week h.month
  | barber id => exact inStep_refresh h.week h.month
  | slot start => exact ⟨h.shown, h.ready, h.week, h.month⟩
  | slotTaken => exact inStep_refresh h.week h.month
  | day date =>
      rw [BookingPage.click]
      split
      next d hd =>
        rcases (h.of_chosenBy htoday hd).2 with ⟨-, hweek⟩ | ⟨-, hmonth⟩
        · exact inStep_refresh hweek (hc d hd)
        · exact absurd (hc d hd) hmonth
      next => exact h

/-- A click that leaves the page with the coming week has stayed in the
month. -/
theorem InStep.staysInMonth (h : InStep today page)
    (hshows : ShowsWeek today (page.click today barbers c)) :
    StaysInMonth today page c := by
  intro d hd
  obtain ⟨hschedule, hread⟩ := h.of_chosenBy htoday hd
  obtain ⟨hservice, hbarber⟩ := h.ready hschedule
  cases c with
  | day date =>
      rw [BookingPage.click, hd] at hshows
      rcases hread with ⟨hyear, hweek⟩ | ⟨hnot, -⟩
      · have hmono := yearOf_mono (mem_comingWeek_iff.mp hweek).1
        refine sharesMonth_of_texts htoday hyear (by omega) ?_
        have hstrip := hshows.week (strip today d)
          (by simp [refresh, hservice, hbarber])
        rwa [strip, List.map_map] at hstrip
      · have hchosen := hshows.chosen
        rw [choice_refresh] at hchosen
        exact absurd hchosen hnot
  | _ => exact absurd hd (by simp [BookingPage.chosenBy])

theorem inStep_openedPage : InStep today (openedPage today) := by
  have hdate : (openedPage today).choice.date = today := stripTime_eq htoday
  refine ⟨Or.inl rfl, fun h => absurd rfl h, ?_, ?_⟩
  · rw [hdate, mem_comingWeek_iff]
    omega
  · rw [hdate]
    exact ⟨rfl, rfl⟩

end

/-- The page shows the coming week all through a visit exactly when the year of
today is not taken for another and every day that is chosen is one of this
month. -/
theorem showsWeek_iff_staysInMonth
    (today : ℤ) (barbers : List String) (clicks : List Click) :
    (∀ seen, seen <+: clicks →
      ShowsWeek today
        (seen.foldl (BookingPage.click today barbers) (openedPage today))) ↔
    ¬ ShortYear today ∧
      Runs.Along (BookingPage.click today barbers) (StaysInMonth today)
        (openedPage today) clicks := by
  constructor
  · intro hshows
    have htoday : ¬ ShortYear today := by
      intro hshort
      have hopened := (hshows [] List.nil_prefix).chosen
      have hlate := le_yearOf_stripTime hshort
      rw [ShortYear] at hshort
      exact not_mem_comingWeek (by omega) hlate hopened
    refine ⟨htoday, ?_⟩
    have hopen := inStep_openedPage htoday
    generalize openedPage today = page at hopen hshows ⊢
    induction clicks generalizing page with
    | nil => trivial
    | cons c clicks ih =>
        have hstays : StaysInMonth today page c :=
          hopen.staysInMonth htoday barbers (hshows [c] (by simp))
        refine ⟨hstays, ih _ (hopen.click htoday barbers hstays) ?_⟩
        intro seen hseen
        exact hshows (c :: seen) (by simpa using hseen)
  · rintro ⟨htoday, halong⟩ seen hseen
    exact (halong.invariant (fun _ _ h hc => h.click htoday barbers hc)
      (inStep_openedPage htoday) hseen).showsWeek htoday

/-- A visit in the middle of a month. -/
theorem showsWeek_in_january :
    ShowsWeek 739991
      ([Click.service "cut", .barber "ali", .day (isoDate 739993)].foldl
        (BookingPage.click 739991 ["ali"]) (openedPage 739991)) :=
  (showsWeek_iff_staysInMonth 739991 ["ali"] _).mpr (by decide) _
    List.prefix_rfl

/-- On 28 January 2027 the strip has 1 February.  Once that is chosen, the strip
is the week from 28 February on, and the chosen day is not in it. -/
theorem february_strip :
    740013 ∈ comingWeek 740009 ∧
    (([Click.service "cut", .barber "ali", .day (isoDate 740013)].foldl
      (BookingPage.click 740009 ["ali"]) (openedPage 740009)).schedule.map
        fun pills => pills.map Pill.date) =
          some ((comingWeek 740040).map isoDate) ∧
    isoDate 740013 ∉ (comingWeek 740040).map isoDate ∧
    ¬ ShowsWeek 740009
      ([Click.service "cut", .barber "ali", .day (isoDate 740013)].foldl
        (BookingPage.click 740009 ["ali"]) (openedPage 740009)) := by
  refine ⟨by decide, by decide, by decide, ?_⟩
  intro h
  have htoday : ¬ ShortYear 740009 := by decide
  have hready := ((inStep_openedPage htoday).click htoday ["ali"]
    (c := .service "cut") (by decide)).click htoday ["ali"]
    (c := .barber "ali") (by decide)
  have hstays := hready.staysInMonth htoday ["ali"]
    (c := .day (isoDate 740013)) h
  exact absurd hstays (by decide)

end BarberHub.Frontend

import BarberHub.Analytics.Periods

/-!
# Datetimes without an offset

The requests that carry datetimes, what their schemas check of them and where
the values go afterwards: into comparisons with the clock and with columns that
have a time zone.  Bookings and breaks refuse a datetime without an offset; the
filters of the listings and of the dashboards do not.
-/

namespace BarberHub

/-! ## Validators -/

namespace Datetime

def IsAware : Datetime → Prop
  | aware _ => True
  | naive _ => False

instance (value : Datetime) : Decidable value.IsAware :=
  match value with
  | aware _ => inferInstanceAs (Decidable True)
  | naive _ => inferInstanceAs (Decidable False)

end Datetime

/-- What a validator raises: pydantic makes a refusal of the one, and the other
escapes it. -/
inductive ValidatorError where
  | valueError (message : String)
  | typeError
  deriving DecidableEq, Repr

/-- The status the exception handlers give it. -/
def ValidatorError.status : ValidatorError → ℕ
  | valueError _ => 422
  | typeError => 500

abbrev Validation := Except ValidatorError

/-- `value <= other`. -/
def Datetime.le (value other : Datetime) : Validation Bool :=
  match value, other with
  | naive w, naive w' => .ok (w ≤ w')
  | aware x, aware x' => .ok (x ≤ x')
  | _, _ => .error .typeError

/-- The check of an offset, with the field it names. -/
def requireOffset (label : String) (value : Datetime) : Validation Unit :=
  if value.IsAware then .ok ()
  else .error (.valueError
    (label ++ " must include a timezone offset, e.g. 2026-09-20T13:00:00+05:00"))

/-- The check that one datetime is after another, with the fields it names. -/
def requireAfter (label other : String) (stop start : Datetime) :
    Validation Unit := do
  if ← stop.le start then
    .error (.valueError (label ++ " must be after " ++ other))

/-- `_require_aware`. -/
def requireAware (value : Datetime) : Validation Unit :=
  requireOffset "start_time" value

/-- `is_a_valid_future_range` of `BreakCreate`. -/
def isAValidFutureRange (startDatetime endDatetime : Datetime) :
    Validation Unit := do
  requireOffset "start_datetime" startDatetime
  requireOffset "end_datetime" endDatetime
  requireAfter "end_datetime" "start_datetime" endDatetime startDatetime

/-- `range_is_ordered` of `AppointmentFilters`. -/
def rangeIsOrdered (dateFrom dateTo : Option Datetime) : Validation Unit :=
  match dateFrom, dateTo with
  | some start, some stop => requireAfter "date_to" "date_from" stop start
  | _, _ => .ok ()

/-! ## Requests -/

/-- A request with datetimes, by what it carries of them. -/
inductive DatedRequest where
  | book (startTime : Datetime)
  | reschedule (startTime : Datetime)
  | createBreak (startDatetime endDatetime : Datetime)
  | listBreaks (dateFrom dateTo : Option Datetime)
  | listAppointments (dateFrom dateTo : Option Datetime)
  | dashboard (dateFrom dateTo : Option Datetime)
  deriving DecidableEq, Repr

namespace DatedRequest

/-- The datetimes the request carries. -/
def datetimes : DatedRequest → List Datetime
  | book startTime => [startTime]
  | reschedule startTime => [startTime]
  | createBreak startDatetime endDatetime => [startDatetime, endDatetime]
  | listBreaks dateFrom dateTo => dateFrom.toList ++ dateTo.toList
  | listAppointments dateFrom dateTo => dateFrom.toList ++ dateTo.toList
  | dashboard dateFrom dateTo => dateFrom.toList ++ dateTo.toList

/-- What is checked before the service is called. -/
def validate : DatedRequest → Validation Unit
  | book startTime => requireAware startTime
  | reschedule startTime => requireAware startTime
  | createBreak startDatetime endDatetime =>
      isAValidFutureRange startDatetime endDatetime
  | listBreaks _ _ => .ok ()
  | listAppointments dateFrom dateTo => rangeIsOrdered dateFrom dateTo
  | dashboard _ _ => .ok ()

/-- What the service compares with the clock or with columns, all of them with
a time zone.  A dashboard fills in the current month. -/
def compared (tz : Zone) (now : ℤ) : DatedRequest → List Datetime
  | book startTime => [startTime]
  | reschedule startTime => [startTime]
  | createBreak startDatetime endDatetime => [startDatetime, endDatetime]
  | listBreaks dateFrom dateTo => dateFrom.toList ++ dateTo.toList
  | listAppointments dateFrom dateTo => dateFrom.toList ++ dateTo.toList
  | dashboard dateFrom dateTo =>
      match resolvePeriodOf dateFrom dateTo tz now with
      | .ok (start, stop) => [start, stop]
      | .error _ => []

/-- The order the schema asks for. -/
def Ordered : DatedRequest → Prop
  | createBreak startDatetime endDatetime => startDatetime.Before endDatetime
  | listAppointments (some dateFrom) (some dateTo) => dateFrom.Before dateTo
  | _ => True

/-- A datetime without an offset is refused with a 422, none meets one with an
offset, and of datetimes with an offset the order of their instants decides. -/
structure RefusesNaive (tz : Zone) (now : ℤ) (request : DatedRequest) : Prop where
  refused : (∃ value ∈ request.datetimes, ¬ value.IsAware) →
    ∃ e, request.validate = .error e ∧ e.status = 422
  compares : request.validate ≠ .error .typeError
  unmixed : request.validate = .ok () →
    ∀ value ∈ request.compared tz now, value.IsAware
  decided : (∀ value ∈ request.datetimes, value.IsAware) →
    (request.validate = .ok () ↔ request.Ordered)

/-- The schema checks the offset, or there is one on every datetime, or two
datetimes without one are the wrong way around. -/
def ChecksOffset : DatedRequest → Prop
  | book _ => True
  | reschedule _ => True
  | createBreak _ _ => True
  | listBreaks dateFrom dateTo =>
      ∀ value ∈ dateFrom.toList ++ dateTo.toList, value.IsAware
  | dashboard dateFrom dateTo =>
      ∀ value ∈ dateFrom.toList ++ dateTo.toList, value.IsAware
  | listAppointments dateFrom dateTo =>
      (∀ value ∈ dateFrom.toList ++ dateTo.toList, value.IsAware) ∨
        ∃ w w', dateFrom = some (.naive w) ∧ dateTo = some (.naive w') ∧ w' ≤ w

/-! ## Requests with an offset on every datetime -/

theorem requireOffset_of_aware {value : Datetime} (h : value.IsAware)
    (label : String) : requireOffset label value = .ok () :=
  if_pos h

theorem requireAfter_aware (label other : String) (stop start : ℤ) :
    requireAfter label other (.aware stop) (.aware start) =
      if stop ≤ start then .error (.valueError (label ++ " must be after " ++ other))
      else .ok () := by
  rw [requireAfter, Datetime.le]
  simp only [bind, Except.bind, decide_eq_true_eq]
  rfl

theorem requireAfter_naive (label other : String) (stop start : ℤ) :
    requireAfter label other (.naive stop) (.naive start) =
      if stop ≤ start then .error (.valueError (label ++ " must be after " ++ other))
      else .ok () := by
  rw [requireAfter, Datetime.le]
  simp only [bind, Except.bind, decide_eq_true_eq]
  rfl

theorem requireAfter_eq_ok_iff {label other : String} {stop start : Datetime}
    (hstop : stop.IsAware) (hstart : start.IsAware) :
    requireAfter label other stop start = .ok () ↔ start.Before stop := by
  cases stop with
  | naive w => exact hstop.elim
  | aware y =>
      cases start with
      | naive w => exact hstart.elim
      | aware x =>
          rw [requireAfter_aware, Datetime.Before]
          split
          next h => exact iff_of_false nofun (not_lt.mpr h)
          next h => exact iff_of_true rfl (not_le.mp h)

theorem requireAfter_ne_typeError {label other : String} {stop start : Datetime}
    (hstop : stop.IsAware) (hstart : start.IsAware) :
    requireAfter label other stop start ≠ .error .typeError := by
  cases stop with
  | naive w => exact hstop.elim
  | aware y =>
      cases start with
      | naive w => exact hstart.elim
      | aware x =>
          rw [requireAfter_aware]
          split <;> nofun

/-- The months the dashboards fill in have an offset. -/
theorem aware_of_resolvePeriodOf {dateFrom dateTo : Option Datetime} {tz : Zone}
    {now : ℤ} {period : Datetime × Datetime}
    (haware : ∀ value ∈ dateFrom.toList ++ dateTo.toList, value.IsAware)
    (h : resolvePeriodOf dateFrom dateTo tz now = .ok period) :
    period.1.IsAware ∧ period.2.IsAware := by
  by_cases hnone : dateFrom = none ∨ dateTo = none
  · rw [resolvePeriodOf_eq_map hnone] at h
    cases hmonth : currentMonth tz now with
    | error e =>
        rw [hmonth] at h
        cases h
    | ok month =>
        rw [hmonth] at h
        obtain rfl := Except.ok.inj h
        constructor
        · cases dateFrom with
          | none => trivial
          | some start => exact haware start (by simp)
        · cases dateTo with
          | none => trivial
          | some stop => exact haware stop (by simp)
  · rw [not_or] at hnone
    obtain ⟨start, rfl⟩ := Option.ne_none_iff_exists'.mp hnone.1
    obtain ⟨stop, rfl⟩ := Option.ne_none_iff_exists'.mp hnone.2
    obtain rfl := Except.ok.inj h
    exact ⟨haware start (by simp), haware stop (by simp)⟩

section

variable {tz : Zone} {now : ℤ} {request : DatedRequest}

theorem aware_of_compared (haware : ∀ value ∈ request.datetimes, value.IsAware) :
    ∀ value ∈ request.compared tz now, value.IsAware := by
  cases request with
  | dashboard dateFrom dateTo =>
      rw [compared]
      split
      next start stop hperiod =>
        obtain ⟨hstart, hstop⟩ := aware_of_resolvePeriodOf haware hperiod
        exact List.forall_mem_cons.mpr
          ⟨hstart, List.forall_mem_singleton.mpr hstop⟩
      next => exact nofun
  | _ => exact haware

theorem rangeIsOrdered_of_aware {dateFrom dateTo : Option Datetime}
    (haware : ∀ value ∈ dateFrom.toList ++ dateTo.toList, value.IsAware) :
    rangeIsOrdered dateFrom dateTo ≠ .error .typeError ∧
      (rangeIsOrdered dateFrom dateTo = .ok () ↔
        (listAppointments dateFrom dateTo).Ordered) := by
  cases dateFrom with
  | none => exact ⟨nofun, iff_of_true rfl trivial⟩
  | some start =>
      cases dateTo with
      | none => exact ⟨nofun, iff_of_true rfl trivial⟩
      | some stop =>
          have hstart := haware start (by simp)
          have hstop := haware stop (by simp)
          exact ⟨requireAfter_ne_typeError hstop hstart,
            requireAfter_eq_ok_iff hstop hstart⟩

/-- With an offset on every datetime, the order decides. -/
theorem validate_of_aware (haware : ∀ value ∈ request.datetimes, value.IsAware) :
    request.validate ≠ .error .typeError ∧
      (request.validate = .ok () ↔ request.Ordered) := by
  cases request with
  | book startTime | reschedule startTime =>
      have hok := requireOffset_of_aware (haware startTime (by simp [datetimes]))
        "start_time"
      rw [validate, requireAware, hok]
      exact ⟨by simp, iff_of_true rfl trivial⟩
  | createBreak startDatetime endDatetime =>
      have hstart := haware startDatetime (by simp [datetimes])
      have hstop := haware endDatetime (by simp [datetimes])
      rw [validate, isAValidFutureRange, requireOffset_of_aware hstart,
        requireOffset_of_aware hstop]
      exact ⟨requireAfter_ne_typeError hstop hstart,
        requireAfter_eq_ok_iff hstop hstart⟩
  | listAppointments dateFrom dateTo => exact rangeIsOrdered_of_aware haware
  | listBreaks dateFrom dateTo | dashboard dateFrom dateTo =>
      -- nothing is checked
      exact ⟨by simp [validate], iff_of_true rfl trivial⟩

theorem refusesNaive_of_aware
    (haware : ∀ value ∈ request.datetimes, value.IsAware) :
    request.RefusesNaive tz now where
  refused := fun ⟨value, hvalue, hnaive⟩ => absurd (haware value hvalue) hnaive
  compares := (validate_of_aware haware).1
  unmixed _ := aware_of_compared haware
  decided _ := (validate_of_aware haware).2

/-! ## Requests without -/

/-- A refusal leaves nothing to compare. -/
theorem refusesNaive_of_refused {message : String}
    (hnaive : ∃ value ∈ request.datetimes, ¬ value.IsAware)
    (h : request.validate = .error (.valueError message)) :
    request.RefusesNaive tz now where
  refused _ := ⟨_, h, rfl⟩
  compares := by
    rw [h]
    nofun
  unmixed hok := by
    rw [h] at hok
    cases hok
  decided haware :=
    have ⟨value, hvalue, hnot⟩ := hnaive
    absurd (haware value hvalue) hnot

theorem requireOffset_of_naive {value : Datetime} (h : ¬ value.IsAware)
    (label : String) :
    ∃ message, requireOffset label value = .error (.valueError message) :=
  ⟨_, if_neg h⟩

/-- The range of a break is not looked at before its offsets. -/
theorem isAValidFutureRange_of_naive {startDatetime endDatetime : Datetime}
    (h : ¬ (startDatetime.IsAware ∧ endDatetime.IsAware)) :
    ∃ message, isAValidFutureRange startDatetime endDatetime =
      .error (.valueError message) := by
  rw [isAValidFutureRange]
  by_cases hstart : startDatetime.IsAware
  · rw [requireOffset_of_aware hstart]
    obtain ⟨message, hstop⟩ :=
      requireOffset_of_naive (fun hstop => h ⟨hstart, hstop⟩) "end_datetime"
    rw [hstop]
    exact ⟨message, rfl⟩
  · obtain ⟨message, hrefused⟩ := requireOffset_of_naive hstart "start_datetime"
    rw [hrefused]
    exact ⟨message, rfl⟩

theorem not_validate_ok (h : request.RefusesNaive tz now)
    (hnaive : ¬ ∀ value ∈ request.datetimes, value.IsAware) :
    ∃ message, request.validate = .error (.valueError message) := by
  obtain ⟨e, he, hstatus⟩ := h.refused (by simpa using hnaive)
  cases e with
  | valueError message => exact ⟨message, he⟩
  | typeError => exact absurd he h.compares

/-- Of filters without an offset on each, two readings the wrong way around are
refused; anything else is accepted or fails. -/
theorem rangeIsOrdered_refused {dateFrom dateTo : Option Datetime}
    {message : String}
    (hnaive : ¬ ∀ value ∈ dateFrom.toList ++ dateTo.toList, value.IsAware)
    (h : rangeIsOrdered dateFrom dateTo = .error (.valueError message)) :
    ∃ w w', dateFrom = some (.naive w) ∧ dateTo = some (.naive w') ∧ w' ≤ w := by
  match dateFrom, dateTo with
  | none, _ => cases h
  | some _, none => cases h
  | some (.aware x), some (.aware y) =>
      exact absurd (by simp [Datetime.IsAware]) hnaive
  | some (.aware x), some (.naive w') => cases h
  | some (.naive w), some (.aware y) => cases h
  | some (.naive w), some (.naive w') =>
      refine ⟨w, w', rfl, rfl, ?_⟩
      by_contra hlt
      rw [rangeIsOrdered, requireAfter_naive, if_neg hlt] at h
      cases h

/-- A datetime without an offset is refused exactly by the requests whose schema
checks it. -/
theorem refusesNaive_iff (tz : Zone) (now : ℤ) (request : DatedRequest) :
    request.RefusesNaive tz now ↔ request.ChecksOffset := by
  by_cases haware : ∀ value ∈ request.datetimes, value.IsAware
  · refine iff_of_true (refusesNaive_of_aware haware) ?_
    cases request with
    | listAppointments dateFrom dateTo => exact Or.inl haware
    | listBreaks dateFrom dateTo | dashboard dateFrom dateTo => exact haware
    | _ => trivial
  · have hnaive : ∃ value ∈ request.datetimes, ¬ value.IsAware := by
      simpa using haware
    cases request with
    | book startTime | reschedule startTime =>
        obtain ⟨value, hvalue, hnot⟩ := hnaive
        obtain rfl := List.mem_singleton.mp hvalue
        obtain ⟨message, h⟩ := requireOffset_of_naive hnot "start_time"
        exact iff_of_true (refusesNaive_of_refused ⟨_, hvalue, hnot⟩ h) trivial
    | createBreak startDatetime endDatetime =>
        have hmissing : ¬ (startDatetime.IsAware ∧ endDatetime.IsAware) := by
          simpa [datetimes] using haware
        obtain ⟨message, h⟩ := isAValidFutureRange_of_naive hmissing
        exact iff_of_true (refusesNaive_of_refused hnaive h) trivial
    | listBreaks dateFrom dateTo | dashboard dateFrom dateTo =>
        refine iff_of_false (fun h => ?_) haware
        obtain ⟨message, hrefused⟩ := not_validate_ok h haware
        cases hrefused
    | listAppointments dateFrom dateTo =>
        constructor
        · intro h
          obtain ⟨message, hrefused⟩ := not_validate_ok h haware
          exact Or.inr (rangeIsOrdered_refused haware hrefused)
        · rintro (hall | ⟨w, w', rfl, rfl, hle⟩)
          · exact absurd hall haware
          · have hrefused := requireAfter_naive "date_to" "date_from" w' w
            rw [if_pos hle] at hrefused
            exact refusesNaive_of_refused hnaive hrefused

end

/-- Breaks are listed from a reading without an offset, and appointments
between one and an instant fail. -/
theorem not_refusesNaive_filters :
    ¬ (listBreaks (some (.naive 0)) none).RefusesNaive (.fixed "UTC" 0) 0 ∧
    ¬ (listAppointments (some (.naive 0)) (some (.aware 0))).RefusesNaive
      (.fixed "UTC" 0) 0 ∧
    (listAppointments (some (.naive 0)) (some (.aware 0))).validate =
      .error .typeError := by
  refine ⟨fun h => ?_, fun h => h.compares rfl, rfl⟩
  obtain ⟨e, he, -⟩ := h.refused ⟨.naive 0, by decide, by decide⟩
  cases he

end DatedRequest

end BarberHub

import BarberHub.Reminders.Sweep
import BarberHub.Search.Distances
import BarberHub.Support.CivilCalendar
import BarberHub.Support.Lines
import BarberHub.Support.Numerals
import BarberHub.Support.Rounding
import BarberHub.Support.TextTemplates

/-!
# The texts of the mails

`app/workers/email.py` and what `app/workers/tasks.py` fills its templates with.
The subject of a mail becomes a header, which has to be a single line; the names
in it are checked for their lengths when they are stored.
-/

namespace BarberHub

open TextTemplates Lines Numerals CivilCalendar

/-! ## Templates -/

/-- The keys of `_TEMPLATES`. -/
inductive MailTemplate where
  | appointmentCreated
  | appointmentCancelled
  | appointmentRescheduled
  | appointmentReminder
  | barberAppointmentCreated
  deriving DecidableEq, Repr

/-- `_TEMPLATES`: the subject and the body. -/
def MailTemplate.texts : MailTemplate → String × String
  | appointmentCreated =>
      ("Your booking at $shop is confirmed",
        "Hi $customer,\n\n" ++
        "You are booked in with $barber at $shop.\n\n" ++
        "  When:    $when\n" ++
        "  Service: $service\n" ++
        "  Price:   $price\n\n" ++
        "Need to change it? You can cancel or reschedule up to " ++
        "$cutoff minutes before.\n")
  | appointmentCancelled =>
      ("Your booking at $shop was cancelled",
        "Hi $customer,\n\n" ++
        "Your $service with $barber on $when has been cancelled.\n" ++
        "$reason\n" ++
        "You can book again any time.\n")
  | appointmentRescheduled =>
      ("Your booking at $shop has moved",
        "Hi $customer,\n\nYour $service with $barber is now at $when.\n")
  | appointmentReminder =>
      ("Reminder: $service at $shop $horizon",
        "Hi $customer,\n\n" ++
        "This is a reminder for your $service with $barber.\n\n" ++
        "  When:  $when\n" ++
        "  Where: $address\n")
  | barberAppointmentCreated =>
      ("New booking: $customer on $when",
        "$barber,\n\n$customer booked $service with you at $when.\n")

/-- The keys of the dictionary `_context` returns. -/
inductive ContextKey where
  | customer
  | barber
  | shop
  | address
  | service
  | price
  | when
  | cutoff
  | reason
  | horizon
  deriving DecidableEq, Repr

def ContextKey.name : ContextKey → String
  | customer => "customer"
  | barber => "barber"
  | shop => "shop"
  | address => "address"
  | service => "service"
  | price => "price"
  | when => "when"
  | cutoff => "cutoff"
  | reason => "reason"
  | horizon => "horizon"

def contextKeys : List ContextKey :=
  [.customer, .barber, .shop, .address, .service, .price, .when, .cutoff,
    .reason, .horizon]

/-- The key with that name. -/
def contextKey (id : List Char) : Option ContextKey :=
  contextKeys.find? fun key => key.name.toList = id

/-! ## Values -/

def weekdayNames : List String :=
  ["Monday", "Tuesday", "Wednesday", "Thursday", "Friday", "Saturday", "Sunday"]

def monthNames : List String :=
  ["January", "February", "March", "April", "May", "June", "July", "August",
    "September", "October", "November", "December"]

/-- `local.strftime("%A %d %B at %H:%M")`. -/
def strftime (wall : ℤ) : List Char :=
  let day := dateOf wall
  let minute := wall % oneDay / 60000000
  (weekdayNames.getD (weekday day).toNat "").toList ++ [' '] ++
    zeroPadded 2 (numeral (dayOfMonth day)) ++ [' '] ++
    (monthNames.getD (monthOf day - 1).toNat "").toList ++ " at ".toList ++
    zeroPadded 2 (numeral (minute / 60)) ++ [':'] ++
    zeroPadded 2 (numeral (minute % 60))

/-- `str(value)` of a value of the context; a price is in hundredths. -/
def MailContext.text (context : MailContext) : ContextKey → List Char
  | .customer => context.customer.toList
  | .barber => context.barber.toList
  | .shop => context.shop.toList
  | .address => context.address.toList
  | .service => context.service.toList
  | .price =>
      numeral (Rounding.halfEven ((context.price : ℚ) / 100)) ++ " KZT".toList
  | .when => strftime context.when
  | .cutoff => numeral context.cutoff
  | .reason => context.reason.toList
  | .horizon => context.horizon.toList

/-- `Template(text).safe_substitute(values)`. -/
def substituted (text : String) (values : ContextKey → List Char) : List Char :=
  safeSubstitute (fun id => (contextKey id).map values) text.toList

/-- `render`. -/
def MailTemplate.render (template : MailTemplate) (context : MailContext) :
    List Char × List Char :=
  (substituted template.texts.1 context.text,
    substituted template.texts.2 context.text)

/-- `_context`. -/
def mailContext (env : Env) (customer barberUser : User) (shop : Barbershop)
    (service : Service) (a : Appointment) : Except Raised MailContext := do
  let wall ← representable ((env.shopTimezone shop).toWall a.startTime)
  pure
    { customer := customer.firstName
      barber := barberUser.firstName
      shop := shop.name
      address := shop.address
      service := service.name
      price := a.totalPrice
      when := wall
      cutoff := env.settings.appointmentChangeCutoffMinutes
      reason := ""
      horizon := "" }

/-! ## The tasks -/

/-- A mail of a task: `notify_appointment_created` sends two. -/
inductive Notice where
  | created
  | createdForBarber
  | cancelled (cancellationReason : Option String)
  | rescheduled
  | reminder (kind : ReminderKind)
  deriving DecidableEq, Repr

namespace Notice

def template : Notice → MailTemplate
  | created => .appointmentCreated
  | createdForBarber => .barberAppointmentCreated
  | cancelled _ => .appointmentCancelled
  | rescheduled => .appointmentRescheduled
  | reminder _ => .appointmentReminder

/-- What the task adds to the context. -/
def fillIn (context : MailContext) : Notice → MailContext
  | cancelled (some reason) =>
      { context with reason := if reason = "" then "" else "Reason: " ++ reason }
  | cancelled none => { context with reason := "" }
  | reminder kind => { context with horizon := kind.phrase }
  | _ => context

/-- The subject and the body. -/
def mail (notice : Notice) (context : MailContext) : List Char × List Char :=
  notice.template.render (notice.fillIn context)

end Notice

/-- `message["Subject"] = value`: a value of several lines is refused. -/
def headerStoreParse (value : List Char) : Except Raised Unit :=
  if 1 < (splitlines value).length then .error .valueError else .ok ()

/-! ## Which mails can be sent -/

/-- The subject is a single line and is taken as a header, and in subject and
body the values stand as they are. -/
structure Notice.Sendable (notice : Notice) (context : MailContext) : Prop where
  singleLine : SingleLine (notice.mail context).1
  header : headerStoreParse (notice.mail context).1 = .ok ()
  verbatim : Verbatim (substituted notice.template.texts.1) ∧
    Verbatim (substituted notice.template.texts.2)

/-- The stored names in the subject, of those of the customer, the shop and the
service. -/
def Notice.subjectNames (customer shop service : String) : Notice → List String
  | created => [shop]
  | createdForBarber => [customer]
  | cancelled _ => [shop]
  | rescheduled => [shop]
  | reminder _ => [service, shop]

/-- The keys of a subject. -/
def MailTemplate.subjectKeys : MailTemplate → List ContextKey
  | appointmentCreated => [.shop]
  | appointmentCancelled => [.shop]
  | appointmentRescheduled => [.shop]
  | appointmentReminder => [.service, .shop, .horizon]
  | barberAppointmentCreated => [.customer, .when]

theorem placeholders_subject (template : MailTemplate) :
    placeholders contextKey template.texts.1.toList = template.subjectKeys := by
  cases template <;> decide +kernel

theorem singleLine_fixedText_subject (template : MailTemplate) :
    SingleLine (fixedText contextKey template.texts.1.toList) := by
  cases template <;> decide +kernel

theorem singleLine_names :
    (∀ name ∈ weekdayNames, SingleLine name.toList) ∧
      ∀ name ∈ monthNames, SingleLine name.toList := by
  decide +kernel

/-- The last piece of a subject. -/
def MailTemplate.subjectEnd : MailTemplate → List Char ⊕ ContextKey
  | appointmentCreated => .inl ['d']
  | appointmentCancelled => .inl ['d']
  | appointmentRescheduled => .inl ['d']
  | appointmentReminder => .inr .horizon
  | barberAppointmentCreated => .inr .when

theorem getLast?_pieces_subject (template : MailTemplate) :
    (pieces contextKey template.texts.1.toList).getLast? =
      some template.subjectEnd := by
  cases template <;> decide +kernel

theorem singleLine_getD {names : List String}
    (h : ∀ name ∈ names, SingleLine name.toList) (i : ℕ) :
    SingleLine (names.getD i "").toList := by
  rw [List.getD_eq_getElem?_getD]
  cases hname : names[i]? with
  | none => exact nofun
  | some name => exact h name (List.mem_of_getElem? hname)

theorem singleLine_zeroPadded {width : ℕ} {n : ℤ} (hn : 0 ≤ n) :
    SingleLine (zeroPadded width (numeral n)) :=
  fun _ hc => not_isLineBreak_of_isDigit (isDigit_of_mem_zeroPadded hn hc)

/-- A date and a time are written on one line. -/
theorem singleLine_strftime (wall : ℤ) : SingleLine (strftime wall) := by
  have hday := dayOfMonth_pos (dateOf wall)
  have hminute : 0 ≤ wall % oneDay / 60000000 := by
    unfold oneDay
    omega
  simp only [strftime, singleLine_append]
  refine ⟨⟨⟨⟨⟨⟨⟨⟨?_, ?_⟩, ?_⟩, ?_⟩, ?_⟩, ?_⟩, ?_⟩, ?_⟩, ?_⟩
  · exact singleLine_getD singleLine_names.1 _
  · decide
  · exact singleLine_zeroPadded (by omega)
  · decide
  · exact singleLine_getD singleLine_names.2 _
  · decide
  · exact singleLine_zeroPadded (by omega)
  · decide
  · exact singleLine_zeroPadded (by omega)

theorem strftime_ne_nil (wall : ℤ) : strftime wall ≠ [] := by
  simp [strftime]

theorem singleLine_phrase (kind : ReminderKind) :
    kind.phrase.toList ≠ [] ∧ SingleLine kind.phrase.toList := by
  cases kind <;> decide +kernel

section

variable (notice : Notice) (context : MailContext)

/-- No task fills in another shop. -/
theorem text_shop_fillIn :
    (notice.fillIn context).text .shop = context.shop.toList := by
  cases notice with
  | cancelled reason => cases reason <;> rfl
  | _ => rfl

/-- The subject is a single line exactly if the names in it are. -/
theorem singleLine_subject_iff :
    SingleLine (notice.mail context).1 ↔
      ∀ name ∈ notice.subjectNames context.customer context.shop
        context.service, SingleLine name.toList := by
  have hsubject := forall_mem_safeSubstitute_iff
    (singleLine_fixedText_subject notice.template)
    (notice.fillIn context).text
  rw [placeholders_subject] at hsubject
  rw [Notice.mail, MailTemplate.render, substituted, SingleLine, hsubject]
  cases notice with
  | createdForBarber =>
      rw [Notice.template, MailTemplate.subjectKeys, List.forall_mem_cons,
        List.forall_mem_singleton, Notice.subjectNames, List.forall_mem_singleton]
      exact and_iff_left (singleLine_strftime context.when)
  | reminder kind =>
      rw [Notice.template, MailTemplate.subjectKeys, List.forall_mem_cons,
        List.forall_mem_cons, List.forall_mem_singleton, Notice.subjectNames,
        List.forall_mem_cons, List.forall_mem_singleton]
      exact and_congr_right fun _ => and_iff_left (singleLine_phrase kind).2
  | _ =>
      -- the mails that name the shop alone
      rw [Notice.template, MailTemplate.subjectKeys, List.forall_mem_singleton,
        text_shop_fillIn, Notice.subjectNames, List.forall_mem_singleton]
      exact Iff.rfl

/-- No subject ends with a line break. -/
theorem subjectEnd_ne_nil :
    Sum.elim id (notice.fillIn context).text notice.template.subjectEnd ≠ [] ∧
      SingleLine
        (Sum.elim id (notice.fillIn context).text notice.template.subjectEnd) := by
  cases notice with
  | createdForBarber =>
      exact ⟨strftime_ne_nil context.when, singleLine_strftime context.when⟩
  | reminder kind => exact singleLine_phrase kind
  | _ =>
      have hend : SingleLine ['d'] := by decide
      exact ⟨List.cons_ne_nil _ _, hend⟩

/-- A subject is taken as a header exactly if it is a single line. -/
theorem headerStoreParse_subject_iff :
    headerStoreParse (notice.mail context).1 = .ok () ↔
      SingleLine (notice.mail context).1 := by
  obtain ⟨hne, hend⟩ := subjectEnd_ne_nil notice context
  have hlast : ∀ c ∈ (notice.mail context).1.getLast?, ¬ IsLineBreak c := by
    intro c hc
    rw [Notice.mail, MailTemplate.render, substituted, getLast?_safeSubstitute
      (getLast?_pieces_subject notice.template) _ hne] at hc
    exact hend c (List.mem_of_getLast? hc)
  rw [← length_splitlines_le_one_iff hlast, headerStoreParse]
  split
  next hlines => exact iff_of_false nofun (not_le.mpr hlines)
  next hlines => exact iff_of_true rfl (not_lt.mp hlines)

theorem sendable_iff : notice.Sendable context ↔
    ∀ name ∈ notice.subjectNames context.customer context.shop context.service,
      SingleLine name.toList := by
  rw [← singleLine_subject_iff]
  constructor
  · exact Notice.Sendable.singleLine
  · intro hsingle
    exact ⟨hsingle, (headerStoreParse_subject_iff notice context).mpr hsingle,
      verbatim_safeSubstitute contextKey _, verbatim_safeSubstitute contextKey _⟩

end

/-- The context of a reminder is that of its rows. -/
theorem reminderMail_context {env : Env} {related : Related}
    {kind : ReminderKind} {a : Appointment} {mail : ReminderMail}
    (h : reminderMail env related kind a = .ok mail) :
    ∃ customer barberUser shop service context,
      mailContext env customer barberUser shop service a = .ok context ∧
        mail.context = (Notice.reminder kind).fillIn context := by
  rw [reminderMail] at h
  obtain ⟨barber, -, h⟩ := Fallible.bind_eq_ok_iff.mp h
  obtain ⟨shop, -, h⟩ := Fallible.bind_eq_ok_iff.mp h
  obtain ⟨wall, hwall, h⟩ := Fallible.bind_eq_ok_iff.mp h
  obtain ⟨customer, -, h⟩ := Fallible.bind_eq_ok_iff.mp h
  obtain ⟨barberUser, -, h⟩ := Fallible.bind_eq_ok_iff.mp h
  obtain ⟨service, -, h⟩ := Fallible.bind_eq_ok_iff.mp h
  obtain rfl := Except.ok.inj h
  refine ⟨customer, barberUser, shop, service,
    ⟨customer.firstName, barberUser.firstName, shop.name, shop.address,
      service.name, a.totalPrice, wall,
      env.settings.appointmentChangeCutoffMinutes, "", ""⟩, ?_, rfl⟩
  rw [mailContext, hwall]
  rfl

section

variable {env : Env} {customer barberUser : User} {shop : Barbershop}
  {service : Service} {a : Appointment} {context : MailContext}

theorem mailContext_names
    (h : mailContext env customer barberUser shop service a = .ok context) :
    context.customer = customer.firstName ∧ context.shop = shop.name ∧
      context.service = service.name := by
  rw [mailContext] at h
  obtain ⟨wall, -, h⟩ := Fallible.bind_eq_ok_iff.mp h
  obtain rfl := Except.ok.inj h
  exact ⟨rfl, rfl, rfl⟩

/-- A mail can be sent exactly if the stored names in its subject have no line
break; what is stored is never read as a placeholder. -/
theorem mail_sendable_iff
    (h : mailContext env customer barberUser shop service a = .ok context)
    (notice : Notice) :
    notice.Sendable context ↔
      ∀ name ∈ notice.subjectNames customer.firstName shop.name service.name,
        SingleLine name.toList := by
  obtain ⟨hcustomer, hshop, hservice⟩ := mailContext_names h
  rw [sendable_iff, hcustomer, hshop, hservice]

end

namespace Sample

/-- A booking on Monday morning. -/
def booked : Appointment :=
  booking 40 (clock 9 0) (clock 9 30) .confirmed

/-- A shop with a line break in its name. -/
def brokenShop : BarbershopCreate :=
  { locatedShop with name := "Sharp\nCuts" }

/-- The context of a mail about the booking, at a shop of that name. -/
def contextAt (shop : String) : MailContext where
  customer := "Cara"
  barber := "Boris"
  shop := shop
  address := "1 Main Street"
  service := "Haircut"
  price := 500000
  when := clock 9 0
  cutoff := 120
  reason := ""
  horizon := ""

end Sample

theorem mail_sendable_sample :
    (Notice.reminder .dayBefore).Sendable (Sample.contextAt "Sample shop") ↔
      ∀ name ∈ ["Haircut", "Sample shop"], SingleLine name.toList := by
  have hcontext : mailContext Sample.env Sample.customer Sample.stylist
      Sample.shop Sample.haircut Sample.booked =
        .ok (Sample.contextAt "Sample shop") := rfl
  exact mail_sendable_iff hcontext (.reminder .dayBefore)

/-- A shop may be created with a line break in its name, and then no mail about
a booking there can be sent. -/
theorem not_sendable_brokenShop :
    Sample.brokenShop.Accepted Sample.env ∧
    mailContext Sample.env Sample.customer Sample.stylist
      (Sample.brokenShop.row 2 10 0) Sample.haircut Sample.booked =
        .ok (Sample.contextAt "Sharp\nCuts") ∧
    ¬ Notice.created.Sendable (Sample.contextAt "Sharp\nCuts") := by
  refine ⟨⟨by decide, accepted_locatedShop.2⟩, rfl, ?_⟩
  rw [sendable_iff]
  decide +kernel

end BarberHub

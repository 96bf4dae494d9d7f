import LavaTunnel.Http
import LavaTunnel.Correctness.Formats
import LavaTunnel.Wire.Form

/-!
# `LavaTunnel.Correctness.Form` — the login form has nothing escaped

`mcLogin` puts the user name, the password and the token into the body of its request as they are. The web site reads
the body as a form: a password with an ampersand ends at it, a plus becomes a space, and a percent sign and two digits
become one byte. All the user sees is that the login fails.
-/

namespace LavaTunnel

open Wire

/-- The fields of the login form. -/
def loginFields (username password token : Bytes) : List (Bytes × Bytes) :=
  [(ascii "username", cstr username), (ascii "password", cstr password), (ascii "token", cstr token)]

/-- The three fields arrive as they are, and the body fits its buffer. -/
structure PostArrives (behind : Bytes → Bytes) (username password token : Bytes) : Prop where
  fields : Form.fields (postLoginStr behind username password token) = loginFields username password token
  fits : Formatted.Fits ⟨256, postLoginText username password token⟩

section Login

variable {behind : Bytes → Bytes} {username password token : Bytes}

theorem plainName_loginFields : ∀ f ∈ loginFields username password token, Form.PlainName f.1 := by
  have husername : Form.PlainName (ascii "username") :=
    Form.plainName_of (by decide) (by decide) (by decide) (by decide)
  have hpassword : Form.PlainName (ascii "password") :=
    Form.plainName_of (by decide) (by decide) (by decide) (by decide)
  have htoken : Form.PlainName (ascii "token") :=
    Form.plainName_of (by decide) (by decide) (by decide) (by decide)
  unfold loginFields
  simp only [List.forall_mem_cons, husername, hpassword, htoken, true_and]
  exact List.forall_mem_nil _

/-- The body is the fields with nothing escaped. -/
theorem postLoginText_eq : postLoginText username password token = Form.body (loginFields username password token) := by
  unfold postLoginText loginFields Form.body Form.body Form.body Form.pair
  have husername : ascii "username=" = ascii "username" ++ [61] := by decide
  have hpassword : ascii "&password=" = 38 :: (ascii "password" ++ [61]) := by decide
  have htoken : ascii "&token=" = 38 :: (ascii "token" ++ [61]) := by decide
  rw [husername, hpassword, htoken]
  simp only [List.append_assoc, List.cons_append, List.nil_append]

theorem length_postLoginText : (postLoginText username password token).length =
    26 + strlen username + strlen password + strlen token := by
  unfold postLoginText strlen
  simp only [List.length_append, length_ascii]
  have husername : (ascii "username=").length = 9 := by decide
  have hpassword : (ascii "&password=").length = 10 := by decide
  have htoken : (ascii "&token=").length = 7 := by decide
  rw [length_ascii] at husername hpassword htoken
  omega

/-- What fits the buffer is posted as it was formatted. -/
theorem postLoginStr_eq (hfits : Formatted.Fits ⟨256, postLoginText username password token⟩) :
    postLoginStr behind username password token = postLoginText username password token := by
  have h0 : 0 ∉ postLoginText username password token := by
    have husername : 0 ∉ ascii "username=" := by decide
    have hpassword : 0 ∉ ascii "&password=" := by decide
    have htoken : 0 ∉ ascii "&token=" := by decide
    unfold postLoginText
    simp only [List.mem_append, zero_notMem_cstr, husername, hpassword, htoken, or_self, not_false_eq_true]
  exact sprintf_of_fits behind h0 (fits_iff.mp hfits)

end Login

/-- **The login form arrives** just if nothing in the three values had to be escaped, and they are not too long. -/
theorem postArrives_iff (behind : Bytes → Bytes) (username password token : Bytes) :
    PostArrives behind username password token ↔
      (Form.Plain (cstr username) ∧ Form.Plain (cstr password) ∧ Form.Plain (cstr token)) ∧
        strlen username + strlen password + strlen token ≤ 229 := by
  have hlen : Formatted.Fits ⟨256, postLoginText username password token⟩ ↔
      strlen username + strlen password + strlen token ≤ 229 := by
    rw [fits_iff, length_postLoginText]
    omega
  have hvalues : (∀ f ∈ loginFields username password token, Form.Plain f.2) ↔
      Form.Plain (cstr username) ∧ Form.Plain (cstr password) ∧ Form.Plain (cstr token) := by
    unfold loginFields
    rw [List.forall_mem_cons, List.forall_mem_cons, List.forall_mem_singleton]
  constructor
  · intro h
    have hfields := h.fields
    rw [postLoginStr_eq h.fits, postLoginText_eq, Form.fields_body_iff plainName_loginFields] at hfields
    exact ⟨hvalues.mp hfields, hlen.mp h.fits⟩
  · rintro ⟨hplain, hshort⟩
    have hfits := hlen.mpr hshort
    refine ⟨?_, hfits⟩
    rw [postLoginStr_eq hfits, postLoginText_eq, Form.fields_body_iff plainName_loginFields]
    exact hvalues.mpr hplain

/-- A password with an ampersand is read up to it, and the rest is another field. -/
theorem ampersand_lost :
    Form.fields (postLoginStr id (ascii "notch") (ascii "salt&pepper") (ascii "t0k3n")) =
        [(ascii "username", ascii "notch"), (ascii "password", ascii "salt"), (ascii "pepper", []),
          (ascii "token", ascii "t0k3n")] ∧
      ¬ PostArrives id (ascii "notch") (ascii "salt&pepper") (ascii "t0k3n") := by
  have hread : Form.fields (postLoginStr id (ascii "notch") (ascii "salt&pepper") (ascii "t0k3n")) =
      [(ascii "username", ascii "notch"), (ascii "password", ascii "salt"), (ascii "pepper", []),
        (ascii "token", ascii "t0k3n")] := by
    decide +kernel
  refine ⟨hread, fun h => ?_⟩
  have hfields := h.fields
  rw [hread] at hfields
  exact absurd (congrArg List.length hfields) (by decide)

end LavaTunnel

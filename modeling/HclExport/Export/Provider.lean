import HclExport.Conversion.Context

/-!
# What stands before the resources

The banner, the provider with its region, and the declaration of the variable that holds
the environment.

## Main definitions

* `banner` — the comment at the top.
* `providerBlocks` — the required provider and its configuration.
* `environmentDeclaration` — the variable that holds the environment.
-/

namespace HclExport

open Hcl (Item quote quoteValue)

/-- The source of the provider. -/
def providerSource : String := "pingidentity/pingone"

/-- The versions of the provider that can be used. -/
def providerVersions : String := ">= 1.0.0"

/-- The pattern of an environment: groups of 8, 4, 4, 4 and 12 digits in base sixteen. -/
def environmentPattern : String :=
  "^[0-9a-f]\x7b8\x7d-[0-9a-f]\x7b4\x7d-[0-9a-f]\x7b4\x7d-[0-9a-f]\x7b4\x7d-[0-9a-f]\x7b12\x7d$"

/-- The comment at the top of a configuration. Without an environment it is a variable. -/
def banner (environment? : Option String) (region : String) : String :=
  let environment := environment?.getD "(variable)"
  Item.renderAll
    [.line "# DaVinci Environment Export",
     .line ("# Environment ID: " ++ environment),
     .line ("# Region: " ++ region),
     .line "#",
     .line "# Exported resources in dependency order:",
     .line "# 1. Variables (no dependencies)",
     .line "# 2. Connector Instances (no dependencies)",
     .line "# 3. Flows (depends on connectors, variables and sub-flows)",
     .line "# 4. Applications (no dependencies)",
     .line "# 5. Flow Policies (depends on applications and flows)"]

/-- The required provider and its configuration for a region, which is quoted whatever it is. -/
def providerBlocks (region : Json) : String :=
  Item.renderAll
    [.braced "terraform"
      [.braced "required_providers"
        [.object "pingone"
          [.assignAll
            [("source", quote providerSource), ("version", quote providerVersions)]]]],
     .blank,
     .braced "provider \"pingone\""
      [.assign "region" (quoteValue region),
       .line "# Configure authentication via environment variables:",
       .line "# PINGONE_CLIENT_ID",
       .line "# PINGONE_CLIENT_SECRET",
       .line "# PINGONE_ENVIRONMENT_ID (for OAuth client)"]]

/-- The declaration of the variable that holds the environment. -/
def environmentDeclaration : String :=
  let name := Context.environmentVariable
  let description := "The PingOne environment ID to configure DaVinci resources in"
  let complaint :=
    "The PingOne Environment ID must be a valid PingOne resource ID (UUID format)."
  Item.renderAll
    [.braced ("variable \"" ++ name ++ "\"")
      [.assignAll [("type", "string"), ("description", quote description)],
       .blank,
       .braced "validation"
        [.assignAll
          [("condition", "can(regex(" ++ quote environmentPattern ++ ", var." ++ name ++ "))"),
           ("error_message", quote complaint)]]]]

end HclExport

import Covenant.Text

/-!
# The schema of reports

A JSON Schema that documents the members of a printed report.
-/

set_option autoImplicit false

namespace Covenant.Report

def schemaLines : List String :=
  [
    "\x7b",
    "  \"$schema\": \"https://json-schema.org/draft/2020-12/schema\",",
    "  \"$id\": \"https://github.com/unbound-force/paranoid/verify-report.schema.json\",",
    "  \"title\": \"Paranoid Verify Report\",",
    "  \"description\": \"Output schema for paranoid verify --format=json\",",
    "  \"type\": \"object\",",
    "  \"required\": [\"version\", \"results\", \"summary\", \"metadata\"],",
    "  \"properties\": \x7b",
    "    \"version\": \x7b",
    "      \"type\": \"string\",",
    "      \"description\": \"Schema version (semver)\"",
    "    \x7d,",
    "    \"results\": \x7b",
    "      \"type\": \"array\",",
    "      \"items\": \x7b \"$ref\": \"#/$defs/FunctionResult\" \x7d",
    "    \x7d,",
    "    \"summary\": \x7b \"$ref\": \"#/$defs/Summary\" \x7d,",
    "    \"metadata\": \x7b \"$ref\": \"#/$defs/Metadata\" \x7d",
    "  \x7d,",
    "  \"$defs\": \x7b",
    "    \"FunctionResult\": \x7b",
    "      \"type\": \"object\",",
    "      \"required\": [\"id\", \"target\", \"verdict\", \"cases\", \"executed\", \"skipped\", \"timed_out\", \"duration_ms\"],",
    "      \"properties\": \x7b",
    "        \"id\": \x7b",
    "          \"type\": \"string\",",
    "          \"description\": \"Stable identifier (fn-XXXXXXXX)\",",
    "          \"pattern\": \"^fn-[0-9a-f]\x7b8\x7d$\"",
    "        \x7d,",
    "        \"target\": \x7b \"$ref\": \"#/$defs/FunctionTarget\" \x7d,",
    "        \"verdict\": \x7b",
    "          \"type\": \"string\",",
    "          \"enum\": [\"passed\", \"untested\", \"failed\"]",
    "        \x7d,",
    "        \"cases\": \x7b",
    "          \"type\": \"integer\",",
    "          \"minimum\": 0,",
    "          \"description\": \"Generated argument combinations\"",
    "        \x7d,",
    "        \"executed\": \x7b",
    "          \"type\": \"integer\",",
    "          \"minimum\": 0,",
    "          \"description\": \"Combinations that ran to completion\"",
    "        \x7d,",
    "        \"skipped\": \x7b",
    "          \"type\": \"integer\",",
    "          \"minimum\": 0,",
    "          \"description\": \"Combinations rejected by a precondition\"",
    "        \x7d,",
    "        \"timed_out\": \x7b",
    "          \"type\": \"integer\",",
    "          \"minimum\": 0,",
    "          \"description\": \"Combinations aborted by max_runtime\"",
    "        \x7d,",
    "        \"failure\": \x7b \"$ref\": \"#/$defs/Failure\" \x7d,",
    "        \"complexity\": \x7b",
    "          \"type\": \"integer\",",
    "          \"minimum\": 0,",
    "          \"description\": \"Cyclomatic complexity, when known\"",
    "        \x7d,",
    "        \"warnings\": \x7b",
    "          \"type\": \"array\",",
    "          \"items\": \x7b \"type\": \"string\" \x7d",
    "        \x7d,",
    "        \"duration_ms\": \x7b \"type\": \"integer\" \x7d",
    "      \x7d",
    "    \x7d,",
    "    \"FunctionTarget\": \x7b",
    "      \"type\": \"object\",",
    "      \"required\": [\"function\"],",
    "      \"properties\": \x7b",
    "        \"package\": \x7b",
    "          \"type\": \"string\",",
    "          \"description\": \"Full import path\"",
    "        \x7d,",
    "        \"function\": \x7b",
    "          \"type\": \"string\",",
    "          \"description\": \"Contract name (e.g., 'geom.Distance')\"",
    "        \x7d,",
    "        \"location\": \x7b",
    "          \"type\": \"string\",",
    "          \"description\": \"Source position (file:line)\"",
    "        \x7d",
    "      \x7d",
    "    \x7d,",
    "    \"Failure\": \x7b",
    "      \"type\": \"object\",",
    "      \"required\": [\"kind\", \"message\"],",
    "      \"properties\": \x7b",
    "        \"kind\": \x7b",
    "          \"type\": \"string\",",
    "          \"enum\": [",
    "            \"ArgumentTypeError\", \"EntryConditionsError\",",
    "            \"ReturnTypeError\", \"ExitConditionsError\",",
    "            \"ObjectModifiedError\", \"InternalError\",",
    "            \"Panic\", \"Error\"",
    "          ]",
    "        \x7d,",
    "        \"message\": \x7b \"type\": \"string\" \x7d,",
    "        \"args\": \x7b",
    "          \"type\": \"object\",",
    "          \"additionalProperties\": \x7b \"type\": \"string\" \x7d",
    "        \x7d",
    "      \x7d",
    "    \x7d,",
    "    \"Summary\": \x7b",
    "      \"type\": \"object\",",
    "      \"required\": [\"functions\", \"passed\", \"untested\", \"failed\", \"executed\", \"untested_names\"],",
    "      \"properties\": \x7b",
    "        \"functions\": \x7b \"type\": \"integer\", \"minimum\": 0 \x7d,",
    "        \"passed\": \x7b \"type\": \"integer\", \"minimum\": 0 \x7d,",
    "        \"untested\": \x7b \"type\": \"integer\", \"minimum\": 0 \x7d,",
    "        \"failed\": \x7b \"type\": \"integer\", \"minimum\": 0 \x7d,",
    "        \"executed\": \x7b \"type\": \"integer\", \"minimum\": 0 \x7d,",
    "        \"untested_names\": \x7b",
    "          \"type\": \"array\",",
    "          \"items\": \x7b \"type\": \"string\" \x7d",
    "        \x7d",
    "      \x7d",
    "    \x7d,",
    "    \"Metadata\": \x7b",
    "      \"type\": \"object\",",
    "      \"required\": [\"run_id\", \"paranoid_version\", \"go_version\", \"duration_ms\"],",
    "      \"properties\": \x7b",
    "        \"run_id\": \x7b \"type\": \"string\" \x7d,",
    "        \"paranoid_version\": \x7b \"type\": \"string\" \x7d,",
    "        \"go_version\": \x7b \"type\": \"string\" \x7d,",
    "        \"target\": \x7b \"type\": \"string\" \x7d,",
    "        \"timestamp\": \x7b \"type\": \"string\", \"format\": \"date-time\" \x7d,",
    "        \"duration_ms\": \x7b",
    "          \"type\": \"integer\",",
    "          \"description\": \"Verification duration in milliseconds\"",
    "        \x7d,",
    "        \"warnings\": \x7b",
    "          \"oneOf\": [",
    "            \x7b \"type\": \"array\", \"items\": \x7b \"type\": \"string\" \x7d \x7d,",
    "            \x7b \"type\": \"null\" \x7d",
    "          ],",
    "          \"description\": \"Run warnings, if any\"",
    "        \x7d",
    "      \x7d",
    "    \x7d",
    "  \x7d",
    "\x7d"]

def schema : Text := Text.join "\n" (schemaLines.map Text.ofString)

end Covenant.Report

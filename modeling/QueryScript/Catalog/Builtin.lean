import QueryScript.Catalog.Basic

/-!
# The built-in rules

Stacked statements, comments, the dangerous procedures of five database systems, timing
attacks, marks of injection, and encodings that hide them.
-/

namespace QueryScript.Catalog

/-- The built-in rules, in the order in which they are tried. -/
def builtinRules : List RuleSettings :=
  [
    ⟨.statement, "stacked_statement",
        (";\\s*(drop|delete|insert|update|alter|create|truncate|exec|execute|grant|revoke|" ++
          "merge|replace|rename|shutdown|declare|call)\\b"),
        [";"]⟩,
    ⟨.statement, "ddl",
        ("\\b(drop|truncate|alter|create)\\s+(table|database|schema|index|view|user|role|" ++
          "procedure|function|trigger|sequence)\\b"),
        ["drop", "truncate", "alter", "create"]⟩,
    ⟨.statement, "dcl", "\\b(grant|revoke)\\s+\\w+", ["grant", "revoke"]⟩,
    ⟨.statement, "dml",
        "\\b(insert\\s+into|delete\\s+from|update\\s+[\\w.]+\\s+set|merge\\s+into)\\b",
        ["insert", "delete", "update", "merge"]⟩,
    ⟨.statement, "exec", "\\bexec(ute)?(\\s+|\\s*\\()", ["exec", "execute"]⟩,
    ⟨.comment, "line_comment", "--", ["--"]⟩,
    ⟨.comment, "block_comment", "/\\*|\\*/", ["/*", "*/"]⟩,
    ⟨.sqlServer, "xp_procedure", "\\bxp_\\w+", ["xp_*"]⟩,
    ⟨.sqlServer, "sp_procedure",
        "\\bsp_(executesql|oacreate|oamethod|configure|addextendedproc|makewebtask)\\b",
        ["sp_executesql", "sp_oacreate", "sp_oamethod", "sp_configure", "sp_addextendedproc",
          "sp_makewebtask"]⟩,
    ⟨.sqlServer, "openrowset",
        "\\b(openrowset|opendatasource|openquery|openxml)\\b",
        ["openrowset", "opendatasource", "openquery", "openxml"]⟩,
    ⟨.sqlServer, "bulk_insert", "\\bbulk\\s+insert\\b", ["bulk"]⟩,
    ⟨.mysql, "load_file", "\\bload_file\\s*\\(", ["load_file"]⟩,
    ⟨.mysql, "into_outfile", "\\binto\\s+(out|dump)file\\b", ["outfile", "dumpfile"]⟩,
    ⟨.mysql, "load_data", "\\bload\\s+data\\s+(local\\s+)?infile\\b", ["infile"]⟩,
    ⟨.mysql, "benchmark", "\\bbenchmark\\s*\\(", ["benchmark"]⟩,
    ⟨.mysql, "sleep", "\\bsleep\\s*\\(", ["sleep"]⟩,
    ⟨.postgres, "file_access",
        "\\bpg_(read_file|read_binary_file|ls_dir|stat_file)\\b",
        ["pg_read_file", "pg_read_binary_file", "pg_ls_dir", "pg_stat_file"]⟩,
    ⟨.postgres, "large_object",
        "\\blo_(import|export|from_bytea|put)\\b",
        ["lo_import", "lo_export", "lo_from_bytea", "lo_put"]⟩,
    ⟨.postgres, "copy", "\\bcopy\\s+[\\w.]+(\\s*\\([^)]*\\))?\\s+(from|to)\\b", ["copy"]⟩,
    ⟨.oracle, "utl_package", "\\butl_(file|http|tcp|smtp|inaddr|mail)\\b", ["utl_*"]⟩,
    ⟨.oracle, "dbms_package", "\\bdbms_\\w+", ["dbms_*"]⟩,
    ⟨.timing, "waitfor_delay", "\\bwaitfor\\s+(delay|time)\\b", ["waitfor"]⟩,
    ⟨.timing, "pg_sleep", "\\bpg_sleep(_for|_until)?\\s*\\(", ["pg_sleep*"]⟩,
    ⟨.timing, "dbms_lock_sleep", "\\bdbms_lock\\s*\\.\\s*sleep\\b", ["dbms_*"]⟩,
    ⟨.injection, "stacked_select", ";\\s*select\\b", [";"]⟩,
    ⟨.injection, "union_select", "\\bunion(\\s+all)?\\s+select\\b", ["union"]⟩,
    ⟨.injection, "server_variable", "@@\\w+", ["@@"]⟩,
    ⟨.injection, "system_catalog",
        ("\\b(information_schema|pg_catalog|pg_shadow|pg_authid|mysql\\s*\\.\\s*user|" ++
          "sys\\s*\\.\\s*\\w+|sysobjects|syscolumns|syslogins|all_tables|all_users|dba_\\w+)\\b"),
        ["information_schema", "pg_catalog", "pg_shadow", "pg_authid", "mysql", "sys",
          "sysobjects", "syscolumns", "syslogins", "all_tables", "all_users", "dba_*"]⟩,
    ⟨.encoding, "hex_literal", "\\b0x[0-9a-f]+\\b", ["0x*"]⟩,
    ⟨.encoding, "char_function", "\\b(n?char|chr)\\s*\\(\\s*\\d+", ["char", "nchar", "chr"]⟩,
    ⟨.encoding, "unhex", "\\bunhex\\s*\\(", ["unhex"]⟩]

/-- The built-in catalog. -/
def builtin : Except Error Catalog :=
  ofSettings builtinRules

/-- The built-in rules with further ones after them. -/
def withExtra (extra : List RuleSettings) : Except Error Catalog :=
  ofSettings (builtinRules ++ extra)

end QueryScript.Catalog

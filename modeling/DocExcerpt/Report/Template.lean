import DocExcerpt.Template.Render
/-!
# Built-in report templates

The templates of the two text formats.
-/
namespace DocExcerpt
namespace Report

def markdownTemplate : Text := Text.join ['\n'] (List.map String.toList [
  "# Included Examples",
  "",
  "Scanned {{ files_scanned }} files under `{{ root }}`.",
  "",
  "{% for include in includes %}",
  "## {{ include.source }}:{{ include.line }}",
  "_{{ include.example }}_",
  "{{ include.block }}",
  "",
  "{% endfor %}",
  "{% if failures %}",
  "## Failures",
  "",
  "{% for failure in failures %}",
  "- {{ failure.source }}:{{ failure.line }} `{{ failure.tag }}`: {{ failure.message }}",
  "{% endfor %}",
  "{% endif %}",
  ""])

def plainTemplate : Text := Text.join ['\n'] (List.map String.toList [
  "Scanned {{ files_scanned }} files under {{ root }}",
  "",
  "{% for include in includes %}",
  "-- {{ include.source }}:{{ include.line }} ({{ include.example }})",
  "{{ include.contents }}",
  "",
  "{% endfor %}",
  "{% for failure in failures %}",
  "!! {{ failure.source }}:{{ failure.line }} {{ failure.tag }}: {{ failure.message }}",
  "{% endfor %}",
  ""])

def builtInTemplate? (name : Text) : Option Text :=
  if name = "markdown".toList then some markdownTemplate
  else if name = "plain".toList then some plainTemplate
  else none

end Report
end DocExcerpt

import BslInsight.Catalog.Common.Methods

/-!
# The global context of OneScript
-/

namespace BslInsight.Catalog.OneScript

def ownMethods : Members := gather [
  under Segment.environment "
  ЗавершитьРаботу/Exit(КодВозврата: Число)
  - Завершает работу скрипта с кодом возврата.
  ЗапуститьПриложение/RunApp(СтрокаКоманды: Строка, ТекущийКаталог?: Строка,
  ДождатьсяЗавершения?: Булево, КодВозврата?: Число)
  - Запускает внешнее приложение.
  ПолучитьПеременнуюСреды/GetEnvironmentVariable(Имя: Строка): Строка
  - Получает значение переменной среды.
  СоздатьПроцесс/CreateProcess(СтрокаЗапуска: Строка, ТекущийКаталог?: Строка,
  ПеренаправитьВывод?: Булево, ПеренаправитьВвод?: Булево): Процесс
  - Создает процесс для запуска внешнего приложения.
  УстановитьПеременнуюСреды/SetEnvironmentVariable(Имя: Строка, Значение: Строка)
  - Устанавливает значение переменной среды.",
  under Segment.other "
  ЗагрузитьСценарий/LoadScript(Путь: Строка, ВнешнийКонтекст?: Структура)
  - Загружает сценарий и создает его объект.
  > Объект загруженного сценария.
  ОсвободитьОбъект/FreeObject(Объект)
  - Освобождает ресурсы объекта.
  ПодключитьСценарий/AttachScript(Путь: Строка, ИмяТипа: Строка)
  - Подключает внешний сценарий как тип.
  Приостановить/Sleep(Задержка: Число)
  * Задержка Время в миллисекундах.
  - Приостанавливает выполнение на заданное время.
  Сообщить/Message(ТекстСообщения: Строка, Статус?: СтатусСообщения)
  * ТекстСообщения Текст выводимого сообщения.
  * Статус Статус сообщения.
  - Выводит сообщение в консоль.
  ТекущийСценарий/CurrentScript: ИнформацияОСценарии
  - Возвращает информацию о текущем сценарии.",
  under Segment.files "
  КаталогВременныхФайлов/TempFilesDir: Строка
  - Возвращает каталог временных файлов.
  КаталогПрограммы/ProgramDirectory: Строка
  - Возвращает каталог исполняемого файла движка.
  КопироватьФайл/CopyFile(ИмяФайлаИсточника: Строка, ИмяФайлаПриемника: Строка)
  - Копирует файл.
  НайтиФайлы/FindFiles(Путь: Строка, Маска?: Строка, ИскатьВПодкаталогах?: Булево): Массив
  - Находит файлы по маске.
  > Массив объектов Файл.
  ПереместитьФайл/MoveFile(ИмяФайлаИсточника: Строка, ИмяФайлаПриемника: Строка)
  - Перемещает файл.
  ПолучитьИмяВременногоФайла/GetTempFileName(Расширение?: Строка): Строка
  - Генерирует уникальное имя временного файла.
  СоздатьКаталог/CreateDirectory(ИмяКаталога: Строка)
  - Создает каталог.
  ТекущийКаталог/CurrentDirectory: Строка
  - Возвращает текущий каталог приложения.
  УдалитьФайлы/DeleteFiles(Путь: Строка, Маска?: Строка)
  - Удаляет файлы по маске."]

def methods : Members :=
  gather [Common.methods, ownMethods]

def properties : Members := gather [
  under Segment.properties "
  АргументыКоманднойСтроки/CommandLineArguments: ФиксированныйМассив
  - Аргументы, переданные сценарию.
  Символы/Chars
  - Специальные символы (ПС, ВК, Таб, НПП)."]

end BslInsight.Catalog.OneScript
